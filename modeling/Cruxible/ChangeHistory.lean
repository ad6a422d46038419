import Cruxible.MutationReceipts

/-!
# Entity change history

The history of an entity is rebuilt from the write nodes of the receipts filed
under it, newest first. It is set against the history that the stored rows went
through: the difference between the rows before and after each call. The two
agree as long as no call is refused after its write nodes were recorded, since
the reader takes refusal receipts for writes.
-/
namespace Cruxible.ChangeHistory
open JsonValue PythonDict AssertionState AppendOnly Fallible Cruxible.Graph PropertyValidation
open GraphOperations GroupDrift DirectWrites Storage EntityChanges MutationReceipts
open FreeWrites (plainRuntime)

structure EntityChangeHistoryItem where
  entityType : String
  entityId : String
  changeKind : ChangeKind
  propertyChanges : List PropertyChangeItem
  changedAt : Timestamp
  receiptId : String
  deriving DecidableEq

/-- `_property_change_items`: entries without a property name are dropped. -/
def propertyChangeItems (raw : List PropertyChangeItem) : List PropertyChangeItem :=
  raw.filter (fun c => c.property ≠ "")

/-- One turn of the node loop. -/
def historyItem (entityType : String) (entityId : Option String) (receiptId : String)
    (n : EntityWriteNode) : Option EntityChangeHistoryItem :=
  if n.entityType ≠ entityType then none
  else if entityId.any (fun i => n.entityId ≠ i) then none
  else if n.changeKind = .updated ∧ propertyChangeItems n.propertyChanges = [] then none
  else some { entityType := entityType, entityId := n.entityId, changeKind := n.changeKind,
              propertyChanges := propertyChangeItems n.propertyChanges,
              changedAt := n.timestamp, receiptId := receiptId }

/-- The items that one receipt contributes, whether it was committed or not. -/
def receiptItems (entityType : String) (entityId : Option String) (r : Receipt) :
    List EntityChangeHistoryItem :=
  r.entityWrites.filterMap (historyItem entityType entityId r.receiptId)

/-- `get_receipts_for_entity`, newest first. -/
def getReceiptsForEntity (receipts : List Receipt) (entityType entityId : String) : List Receipt :=
  (receipts.filter (fun r => (entityType, entityId) ∈ r.indexedEntities)).insertionSort
    (fun a b => b.createdAt ≤ a.createdAt)

/-- `_all_receipt_ids`, page by page through `list_receipts`. -/
def allReceipts (receipts : List Receipt) : List Receipt :=
  receipts.insertionSort
    (fun a b => b.createdAt < a.createdAt ∨ b.createdAt = a.createdAt ∧ b.receiptId ≤ a.receiptId)

/-- The sort key of the history, compared in reverse. -/
def NotOlder (a b : EntityChangeHistoryItem) : Prop :=
  b.changedAt < a.changedAt ∨ b.changedAt = a.changedAt ∧ b.receiptId ≤ a.receiptId

instance : DecidableRel NotOlder := fun a b => by
  unfold NotOlder
  exact inferInstance

structure EntityChangeHistoryResult where
  items : List EntityChangeHistoryItem
  total : Nat
  limit : Int
  offset : Int
  truncated : Bool
  deriving DecidableEq

/-- One page of the sorted changes. -/
def historyPage (changes : List EntityChangeHistoryItem) (limit offset : Int) :
    EntityChangeHistoryResult :=
  let page := (changes.drop offset.toNat).take limit.toNat
  { items := page, total := changes.length, limit := limit, offset := offset,
    truncated := decide (offset + page.length < changes.length) ||
      (decide (0 < changes.length) && decide (page.length = 0)) }

/-- Every change that the history lists, over all pages. -/
def changesOf (receipts : List Receipt) (entityType : String) (entityId : Option String) :
    List EntityChangeHistoryItem :=
  let found := match entityId with
    | some i => getReceiptsForEntity receipts entityType i
    | none => allReceipts receipts
  (found.flatMap (receiptItems entityType entityId)).insertionSort NotOlder

/-- `service_get_entity_change_history`. -/
def serviceGetEntityChangeHistory (config : CoreConfig) (s : Instance) (entityType : String)
    (entityId : Option String) (limit offset : Int) :
    Except CoreError EntityChangeHistoryResult := do
  refuseIf (limit < 1) (.config "limit must be at least 1")
  refuseIf (offset < 0) (.config "offset must be non-negative")
  refuseIf (config.entityTypes.get? entityType = none) (.entityTypeNotFound entityType)
  return historyPage (changesOf s.receipts entityType entityId) limit offset

abbrev Change := ChangeKind × List PropertyChangeItem

def EntityChangeHistoryItem.change (item : EntityChangeHistoryItem) : Change :=
  (item.changeKind, item.propertyChanges)

/-- The move of one property between two property mappings. -/
def propertyMove (before after : Properties) (name : String) : PropertyChangeItem :=
  { property := name, fromValue := (before.get? name).getD .null,
    toValue := (after.get? name).getD .null }

/-- The names that `after` binds to another value than `before`. -/
def movedNames (before after : Properties) : List String :=
  after.keys.filter (fun name => before.get? name ≠ after.get? name)

/-- The change of an entity between two stored rows. -/
def changeBetween : Option EntityInstance → Option EntityInstance → Option Change
  | _, none => none
  | none, some d => some (.created, (sorted d.properties.keys).map (propertyMove ∅ d.properties))
  | some b, some d =>
      if movedNames b.properties d.properties = [] then none
      else some (.updated, (sorted (movedNames b.properties d.properties)).map
        (propertyMove b.properties d.properties))

def applyChanges (d : Properties) (changes : List PropertyChangeItem) : Properties :=
  changes.foldl (fun d c => d.set c.property c.toValue) d

/-- The properties that a chronological list of items leads to from nothing. -/
def replay (items : List EntityChangeHistoryItem) : Properties :=
  items.foldl (fun d item => applyChanges d item.propertyChanges) ∅

/-- The changes of the stored row along a sequence of calls. -/
def committedChanges (n : NodeId) : Instance → List Mutation → List Change
  | _, [] => []
  | s, m :: ms =>
      (changeBetween (s.store.nodes.get? n) ((perform s m).store.nodes.get? n)).toList ++
        committedChanges n (perform s m) ms

theorem changeBetween_self (row : Option EntityInstance) : changeBetween row row = none := by
  cases row with
  | none => rfl
  | some d => simp [changeBetween, movedNames]

/-- A member laid over a stored row. -/
theorem changeBetween_written (d : EntityInstance) (v : ValidatedEntity) :
    changeBetween (some d) (some (writtenRecord (some d) v)) =
      if movedNames d.properties (d.properties.update v.entity.properties) = [] then none
      else some (.updated,
        (sorted (movedNames d.properties (d.properties.update v.entity.properties))).map
          (propertyMove d.properties (d.properties.update v.entity.properties))) :=
  rfl

theorem sorted_perm (names : List String) : (sorted names).Perm names :=
  List.perm_insertionSort _ names

variable {name : String} {d p : Properties}

theorem mem_sorted {names : List String} : name ∈ sorted names ↔ name ∈ names :=
  (sorted_perm names).mem_iff

theorem sorted_pairwise (names : List String) : (sorted names).Pairwise (· ≤ ·) :=
  List.pairwise_insertionSort _ names

theorem sorted_congr {xs ys : List String} (h : xs.Perm ys) : sorted xs = sorted ys := by
  apply List.Perm.eq_of_pairwise' (sorted_pairwise xs) (sorted_pairwise ys)
  exact (sorted_perm xs).trans (h.trans (sorted_perm ys).symm)

theorem replay_append (xs ys : List EntityChangeHistoryItem) :
    replay (xs ++ ys) = ys.foldl (fun d item => applyChanges d item.propertyChanges) (replay xs) :=
  List.foldl_append

theorem get?_applyChanges_moves (before after : Properties) (names : List String)
    (d : Properties) (name : String) :
    (applyChanges d (names.map (propertyMove before after))).get? name =
      if name ∈ names then some ((after.get? name).getD .null) else d.get? name := by
  induction names generalizing d with
  | nil => simp [applyChanges]
  | cons x names ih =>
    have hstep : applyChanges d ((x :: names).map (propertyMove before after)) =
        applyChanges (d.set x ((after.get? x).getD .null))
          (names.map (propertyMove before after)) := rfl
    rw [hstep, ih, Dict.get?_set]
    by_cases hmem : name ∈ names
    · simp [hmem]
    · by_cases hx : x = name
      · subst hx
        simp [hmem]
      · simp [hmem, hx, Ne.symm hx]

/-- Whether the differ lists a proposed name: the value is new, or `!=` the
stored one. -/
def listed (proposed current : Properties) (name : String) : Bool :=
  match proposed.get? name, current.get? name with
  | some a, some b => !a.pyEq b
  | some _, none => true
  | none, _ => false

theorem propertyValueChanges_added (proposed current : Properties) :
    propertyValueChanges proposed current true false =
      (sorted (proposed.keys.filter (listed proposed current))).map
        (propertyMove current proposed) := by
  have hperm : ((propertyDelta proposed current).changed ++ (propertyDelta proposed current).added
      ++ ([] : List String)).Perm (proposed.keys.filter (listed proposed current)) := by
    rw [List.append_nil]
    have hnodup : proposed.keys.Nodup := proposed.nodup
    rw [List.perm_ext_iff_of_nodup]
    · intro name
      simp only [propertyDelta, List.mem_append, mem_sorted, List.mem_filter, Dict.contains, listed,
        differs, Dict.mem_keys]
      cases proposed.get? name <;> cases current.get? name <;> simp
    · rw [List.nodup_append]
      refine ⟨?_, ?_, ?_⟩
      · exact (sorted_perm _).nodup_iff.mpr ((hnodup.filter _).filter _)
      · exact (sorted_perm _).nodup_iff.mpr (hnodup.filter _)
      · intro a ha b hb hab
        subst hab
        simp only [propertyDelta, mem_sorted, List.mem_filter] at ha hb
        simp [ha.1.2] at hb
    · exact hnodup.filter _
  unfold propertyValueChanges
  simp only [if_true, Bool.false_eq_true, if_false]
  rw [sorted_congr hperm]
  rfl

theorem listed_perm_moved (hdistinct : ∀ name a b, p.get? name = some a → d.get? name = some b →
      (a.pyEq b = true ↔ a = b)) :
    (p.keys.filter (listed p d)).Perm (movedNames d (d.update p)) := by
  have hp : p.keys.Nodup := p.nodup
  have hup : (d.update p).keys.Nodup := (d.update p).nodup
  unfold movedNames
  rw [List.perm_ext_iff_of_nodup (hp.filter _) (hup.filter _)]
  intro name
  simp only [List.mem_filter, Dict.mem_keys, Dict.get?_update, listed, decide_eq_true_eq]
  cases ha : p.get? name with
  | none => simp
  | some a =>
    cases hb : d.get? name with
    | none => simp
    | some b =>
      have hiff := hdistinct name a b ha hb
      by_cases hab : a = b
      · have heq : a.pyEq b = true := hiff.mpr hab
        subst hab
        simp [heq]
      · have hne : a.pyEq b = false := by
          rw [← Bool.not_eq_true]
          exact fun h => hab (hiff.mp h)
        simp [hne, Ne.symm hab]

theorem mem_movedNames_update :
    name ∈ movedNames d (d.update p) ↔ d.get? name ≠ (d.update p).get? name := by
  rw [movedNames, List.mem_filter, Dict.mem_keys, decide_eq_true_eq, and_iff_right_iff_imp]
  intro hne
  rw [Dict.get?_update] at hne ⊢
  cases ha : p.get? name with
  | none => simp [ha] at hne
  | some a => exact ⟨a, rfl⟩

theorem moves_listed (p d : Properties) :
    (sorted (p.keys.filter (listed p d))).map (propertyMove d p) =
      (sorted (p.keys.filter (listed p d))).map (propertyMove d (d.update p)) := by
  apply List.map_congr_left
  intro name hname
  rw [mem_sorted, List.mem_filter, Dict.mem_keys] at hname
  obtain ⟨⟨a, ha⟩, -⟩ := hname
  simp [propertyMove, Dict.get?_update, ha]

section Step
variable {t i : String} {s : Instance} {m : Mutation}

/-- The items of an entity in the order in which their receipts were stored. -/
def recordedItems (t i : String) (receipts : List Receipt) : List EntityChangeHistoryItem :=
  receipts.flatMap (receiptItems t (some i))

theorem recordedItems_append (receipts : List Receipt) (r : Receipt) :
    recordedItems t i (receipts ++ [r]) = recordedItems t i receipts ++ receiptItems t (some i) r := by
  simp [recordedItems]

/-- Under which circumstances a call is told truly by the history of an entity.

No other spelling shares the entity's node id. A call that recorded a write of
the entity is not refused while its rows are saved, unless the refusal receipt
is lost too. Property names are not empty, and `==` tells every written value
from the stored one if they differ. The clock has moved on since the last item. -/
structure ToldTruly (t i : String) (s : Instance) (m : Mutation) : Prop where
  spelled : ∀ e ∈ m.request.entities, e.nodeId = makeNodeId t i →
    (e.entityType, e.entityId) = (t, i)
  saved : ∀ p, m.checkOwnership = .ok () → m.request.encodable = true →
    m.prepare s.store = .ok p →
    (∃ v ∈ p.entities.validated, v.entity.nodeId = makeNodeId t i) → m.persists = true →
    ∃ next, m.save s.store p = .ok next
  distinct : ∀ v, (∃ e ∈ m.request.entities, e.nodeId = makeNodeId t i ∧
      validateEntity m.w s.store e.entityType e.entityId e.properties e.metadata = .ok v) →
    ∀ name a, v.entity.properties.get? name = some a → name ≠ "" ∧
      ∀ d b, s.store.nodes.get? (makeNodeId t i) = some d → d.properties.get? name = some b →
        (a.pyEq b = true ↔ a = b)
  later : ∀ item ∈ recordedItems t i s.receipts, ∀ k, item.changedAt < m.clock k

/-- The node recorded for one member. -/
def writeNode (m : Mutation) (g : EntityGraph) (v : ValidatedEntity) (k : Nat) : EntityWriteNode :=
  { entityType := v.entity.entityType, entityId := v.entity.entityId,
    changeKind := (entityPropertyChangeDetail g v).1,
    propertyChanges := (entityPropertyChangeDetail g v).2, timestamp := m.clock k }

variable {g : EntityGraph} {v : ValidatedEntity}

theorem items_of_others {rid : String} {validated : List ValidatedEntity}
    (hskip : ∀ v ∈ validated, v.entity.nodeId ≠ makeNodeId t i) (k : Nat) :
    (validated.zipIdx k).filterMap
      (fun p => historyItem t (some i) rid (writeNode m g p.1 p.2)) = [] := by
  rw [List.filterMap_eq_nil_iff]
  intro p hp
  have hmem : p.1 ∈ validated := List.fst_mem_of_mem_zipIdx hp
  have hne := hskip p.1 hmem
  by_cases ht : p.1.entity.entityType = t
  · have hi : p.1.entity.entityId ≠ i := by
      intro hi
      apply hne
      rw [EntityInstance.nodeId, ht, hi]
    simp [historyItem, writeNode, ht, hi]
  · simp [historyItem, writeNode, ht]

theorem receiptItems_eq (g : EntityGraph) (b : EntityBatch) (committed : Bool) :
    receiptItems t (some i) (m.receipt committed (m.recordEntityWrites g b)) =
      b.validated.zipIdx.filterMap
        (fun p => historyItem t (some i) m.receiptId (writeNode m g p.1 p.2)) := by
  simp only [receiptItems, Mutation.receipt, Mutation.recordEntityWrites, List.filterMap_map]
  rfl

theorem items_of_written {b : EntityBatch} {pre post : List ValidatedEntity}
    (hsplit : b.validated = pre ++ v :: post)
    (hskip : ∀ x ∈ pre ++ post, x.entity.nodeId ≠ makeNodeId t i) (committed : Bool) :
    receiptItems t (some i) (m.receipt committed (m.recordEntityWrites g b)) =
      (historyItem t (some i) m.receiptId (writeNode m g v pre.length)).toList := by
  rw [receiptItems_eq, hsplit, List.zipIdx_append, List.zipIdx_cons, List.filterMap_append,
    List.filterMap_cons,
    items_of_others (fun x hx => hskip x (List.mem_append_left _ hx)),
    items_of_others (fun x hx => hskip x (List.mem_append_right _ hx))]
  simp only [List.nil_append, Nat.zero_add]
  cases historyItem t (some i) m.receiptId (writeNode m g v pre.length) <;> rfl

theorem detail_eq_change (hup : v.isUpdate = (g.nodes.get? v.entity.nodeId).isSome)
    (hdistinct : ∀ name a, v.entity.properties.get? name = some a →
      ∀ d b, g.nodes.get? v.entity.nodeId = some d → d.properties.get? name = some b →
        (a.pyEq b = true ↔ a = b)) :
    changeBetween (g.nodes.get? v.entity.nodeId)
        (some (writtenRecord (g.nodes.get? v.entity.nodeId) v)) =
      if (entityPropertyChangeDetail g v).1 = .updated ∧ (entityPropertyChangeDetail g v).2 = []
      then none else some (entityPropertyChangeDetail g v) := by
  have hget : g.getEntity v.entity.entityType v.entity.entityId =
      g.nodes.get? v.entity.nodeId := rfl
  unfold entityPropertyChangeDetail
  simp only [hget, propertyValueChanges_added]
  cases hrow : g.nodes.get? v.entity.nodeId with
  | none =>
    rw [hrow, Option.isSome_none] at hup
    have hall : v.entity.properties.keys.filter (listed v.entity.properties ∅) =
        v.entity.properties.keys := by
      rw [List.filter_eq_self]
      intro name hname
      obtain ⟨a, ha⟩ := Dict.mem_keys.mp hname
      simp [listed, ha]
    simp [hup, hall, changeBetween, writtenRecord]
  | some d =>
    rw [hrow, Option.isSome_some] at hup
    have hperm := listed_perm_moved (p := v.entity.properties) (d := d.properties)
      (fun name a b ha hb => hdistinct name a ha d b hrow hb)
    have hmoves := moves_listed v.entity.properties d.properties
    rw [sorted_congr hperm] at hmoves
    simp only [changeBetween_written, hup, if_true, sorted_congr hperm, hmoves, true_and,
      List.map_eq_nil_iff]
    have hnil : ∀ names : List String, sorted names = [] ↔ names = [] := by
      intro names
      exact ⟨fun h => (h ▸ sorted_perm names).nil_eq.symm, fun h => by rw [h]; rfl⟩
    by_cases hnone : movedNames d.properties (d.properties.update v.entity.properties) = []
    · rw [if_pos hnone, if_pos ((hnil _).mpr hnone)]
    · rw [if_neg hnone, if_neg (fun h => hnone ((hnil _).mp h))]

theorem historyItem_written (ht : v.entity.entityType = t) (hi : v.entity.entityId = i)
    (hup : v.isUpdate = (g.nodes.get? (makeNodeId t i)).isSome)
    (hdistinct : ∀ name a, v.entity.properties.get? name = some a → name ≠ "" ∧
      ∀ d b, g.nodes.get? (makeNodeId t i) = some d → d.properties.get? name = some b →
        (a.pyEq b = true ↔ a = b)) (k : Nat) :
    historyItem t (some i) m.receiptId (writeNode m g v k) =
      (changeBetween (g.nodes.get? (makeNodeId t i))
        (some (writtenRecord (g.nodes.get? (makeNodeId t i)) v))).map fun c =>
          { entityType := t, entityId := i, changeKind := c.1, propertyChanges := c.2,
            changedAt := m.clock k, receiptId := m.receiptId } := by
  have hnode : v.entity.nodeId = makeNodeId t i := by rw [EntityInstance.nodeId, ht, hi]
  have hchange := detail_eq_change (g := g) (v := v) (by rw [hnode]; exact hup)
    (by rw [hnode]; exact fun name a ha => (hdistinct name a ha).2)
  rw [hnode] at hchange
  have hkeep : propertyChangeItems (entityPropertyChangeDetail g v).2 =
      (entityPropertyChangeDetail g v).2 := by
    unfold propertyChangeItems
    rw [List.filter_eq_self]
    intro c hc
    suffices hmem : c.property ∈ v.entity.properties.keys by
      obtain ⟨a, ha⟩ := Dict.mem_keys.mp hmem
      simpa using (hdistinct _ a ha).1
    unfold entityPropertyChangeDetail at hc
    split_ifs at hc <;>
    · simp only [propertyValueChanges_added, List.mem_map, mem_sorted, List.mem_filter] at hc
      obtain ⟨name, ⟨hname, -⟩, rfl⟩ := hc
      exact hname
  rw [hchange]
  unfold historyItem
  simp only [writeNode, ht, hi, hkeep, ne_eq, not_true_eq_false, if_false, Option.any_some,
    decide_false, Bool.false_eq_true]
  split_ifs <;> rfl

/-- The rows and the recorded items of an entity tell the same story. -/
structure Tracks (t i : String) (s : Instance) (changes : List Change) : Prop where
  wellFormed : WellFormed s.store
  named : recordedItems t i s.receipts ≠ [] → i ≠ ""
  ordered : (recordedItems t i s.receipts).Pairwise (fun a b => a.changedAt < b.changedAt)
  told : (recordedItems t i s.receipts).map EntityChangeHistoryItem.change = changes
  replayed : ∀ name, (replay (recordedItems t i s.receipts)).get? name =
    (s.store.nodes.get? (makeNodeId t i)).bind (fun d => d.properties.get? name)

theorem get?_applyChanges_between {before : Option EntityInstance} {d : Properties}
    (hd : ∀ name, d.get? name = before.bind (fun b => b.properties.get? name)) (name : String) :
    (match changeBetween before (some (writtenRecord before v)) with
      | some c => applyChanges d c.2
      | none => d).get? name = (writtenRecord before v).properties.get? name := by
  cases before with
  | none =>
    simp only [changeBetween, writtenRecord, get?_applyChanges_moves, mem_sorted]
    split_ifs with hname
    · obtain ⟨a, ha⟩ := Dict.mem_keys.mp hname
      simp [ha]
    · rw [Dict.get?_eq_none.mpr hname, hd]
      rfl
  | some b =>
    by_cases hnone : movedNames b.properties (b.properties.update v.entity.properties) = []
    · have hsame : b.properties.get? name =
          (b.properties.update v.entity.properties).get? name := by
        by_contra hne
        have hmem := mem_movedNames_update.mpr hne
        rw [hnone] at hmem
        exact absurd hmem List.not_mem_nil
      rw [changeBetween_written, if_pos hnone]
      exact (hd name).trans hsame
    · rw [changeBetween_written, if_neg hnone]
      simp only [get?_applyChanges_moves, mem_sorted]
      change _ = (b.properties.update v.entity.properties).get? name
      split_ifs with hne
      · obtain ⟨a, ha⟩ := Dict.mem_keys.mp (List.mem_filter.mp hne).1
        simp [ha]
      · rw [hd]
        by_contra hmoved
        exact hne (mem_movedNames_update.mpr hmoved)

theorem Tracks.receipt {changes : List Change} (h : Tracks t i s changes) {r : Receipt}
    (hr : receiptItems t (some i) r = []) :
    Tracks t i { s with receipts := s.receipts ++ [r] } changes := by
  have hitems : recordedItems t i (s.receipts ++ [r]) = recordedItems t i s.receipts := by
    rw [recordedItems_append, hr, List.append_nil]
  exact { wellFormed := h.wellFormed, named := hitems ▸ h.named, ordered := hitems ▸ h.ordered,
          told := hitems ▸ h.told, replayed := hitems ▸ h.replayed }

theorem Tracks.written {changes : List Change} (h : Tracks t i s changes) {next : EntityGraph}
    {v : ValidatedEntity} {r : Receipt} {k : Nat} (hnext : WellFormed next) (hnamed : i ≠ "")
    (hlater : ∀ item ∈ recordedItems t i s.receipts, ∀ k, item.changedAt < m.clock k)
    (hrow : next.nodes.get? (makeNodeId t i) =
      some (writtenRecord (s.store.nodes.get? (makeNodeId t i)) v))
    (hitems : receiptItems t (some i) r = ((changeBetween (s.store.nodes.get? (makeNodeId t i))
      (some (writtenRecord (s.store.nodes.get? (makeNodeId t i)) v))).map fun c =>
        { entityType := t, entityId := i, changeKind := c.1, propertyChanges := c.2,
          changedAt := m.clock k, receiptId := m.receiptId }).toList) :
    Tracks t i { store := next, receipts := s.receipts ++ [r] }
      (changes ++ (changeBetween (s.store.nodes.get? (makeNodeId t i))
        (next.nodes.get? (makeNodeId t i))).toList) := by
  have hreplay := get?_applyChanges_between (v := v) h.replayed
  rw [← hrow] at hitems
  cases hchange : changeBetween (s.store.nodes.get? (makeNodeId t i))
      (next.nodes.get? (makeNodeId t i)) with
  | none =>
    rw [hchange] at hitems
    rw [← hrow, hchange] at hreplay
    have htracked := h.receipt hitems
    rw [Option.toList_none, List.append_nil]
    refine { htracked with wellFormed := hnext, replayed := ?_ }
    intro name
    have hold := htracked.replayed name
    rw [hrow]
    exact hold.trans ((h.replayed name).symm.trans (hreplay name))
  | some c =>
    rw [hchange] at hitems
    rw [← hrow, hchange] at hreplay
    simp only [Option.map_some, Option.toList_some] at hitems
    constructor
    · exact hnext
    · exact fun _ => hnamed
    · simp only [recordedItems_append, hitems, List.pairwise_append, List.pairwise_cons,
        List.mem_singleton]
      refine ⟨h.ordered, ⟨by simp, List.Pairwise.nil⟩, ?_⟩
      rintro a ha b rfl
      exact hlater a ha k
    · simp only [recordedItems_append, hitems, List.map_append, h.told]
      rfl
    · intro name
      simp only [recordedItems_append, hitems, replay_append, hrow]
      exact hreplay name

/-- A validated member has a name. -/
theorem validateEntity_named {w : WriteContext} {p : Properties} {md : EntityMetadata}
    (hv : validateEntity w g t i p md = .ok v) : i ≠ "" := by
  rintro rfl
  have hblank : blank "" = true := by decide
  unfold validateEntity at hv
  split at hv
  · cases hv
  · rw [if_pos hblank] at hv
    cases hv

theorem Tracks.step {changes : List Change} (h : Tracks t i s changes) (hm : ToldTruly t i s m) :
    Tracks t i (perform s m) (changes ++ (changeBetween (s.store.nodes.get? (makeNodeId t i))
      ((perform s m).store.nodes.get? (makeNodeId t i))).toList) := by
  have hkeep : ∀ r : Receipt, receiptItems t (some i) r = [] →
      Tracks t i { s with receipts := s.receipts ++ [r] }
        (changes ++ (changeBetween (s.store.nodes.get? (makeNodeId t i))
          (s.store.nodes.get? (makeNodeId t i))).toList) := by
    intro r hr
    rw [changeBetween_self, Option.toList_none, List.append_nil]
    exact h.receipt hr
  have hperformed := performed s m
  generalize perform s m = s' at hperformed ⊢
  cases hperformed with
  | unchanged =>
    rw [changeBetween_self, Option.toList_none, List.append_nil]
    exact h
  | refused _ => exact hkeep _ rfl
  | @rolledBack p e howned henc hprep hsave hp =>
    cases prepare_node hprep hm.spelled with
    | untouched hskip _ =>
      apply hkeep
      rw [receiptItems_eq]
      exact items_of_others hskip 0
    | @written pre post v e hsplit _ _ _ _ ht hi _ _ =>
      obtain ⟨next, hnext⟩ := hm.saved p howned henc hprep
        ⟨v, by simp [hsplit], by rw [EntityInstance.nodeId, ht, hi]⟩ hp
      rw [hsave] at hnext
      cases hnext
  | @committed p next hprep hsave hp =>
    have heffect := prepare_node hprep hm.spelled
    obtain ⟨hwell, hrow⟩ := save_node hprep hsave h.wellFormed heffect
    cases heffect with
    | untouched hskip hres =>
      have htracked := hkeep (m.receipt true (m.recordEntityWrites s.store p.entities))
        (by rw [receiptItems_eq]; exact items_of_others hskip 0)
      have hsame : next.nodes.get? (makeNodeId t i) =
          s.store.nodes.get? (makeNodeId t i) := hrow.trans hres
      change Tracks t i _ (changes ++ (changeBetween _ (next.nodes.get? (makeNodeId t i))).toList)
      rw [hsame]
      refine { htracked with wellFormed := hwell, replayed := ?_ }
      intro name
      rw [hsame]
      exact htracked.replayed name
    | @written pre post v e hsplit hskip hmem hnode hval ht hi hup hres =>
      have hspelled := hm.spelled e hmem hnode
      simp only [Prod.mk.injEq] at hspelled
      have hdistinct := hm.distinct v ⟨e, hmem, hnode, hval⟩
      apply h.written hwell (hspelled.2 ▸ validateEntity_named hval) hm.later
        (hrow.trans hres)
      rw [items_of_written hsplit hskip true, historyItem_written ht hi hup hdistinct]

end Step

section Run
variable {t i : String}

/-- A sequence of calls, successful or refused. -/
def performAll (s : Instance) (ms : List Mutation) : Instance := ms.foldl perform s

/-- Every call of the sequence is told truly where it runs. -/
def AllToldTruly (t i : String) : Instance → List Mutation → Prop
  | _, [] => True
  | s, m :: ms => ToldTruly t i s m ∧ AllToldTruly t i (perform s m) ms

/-- The entity has no row and no item yet. -/
structure Unwritten (t i : String) (s : Instance) : Prop where
  wellFormed : WellFormed s.store
  absent : s.store.nodes.get? (makeNodeId t i) = none
  silent : recordedItems t i s.receipts = []

variable {s : Instance}

theorem Unwritten.tracks (h : Unwritten t i s) : Tracks t i s [] := by
  constructor
  · exact h.wellFormed
  · exact fun hne => absurd h.silent hne
  · rw [h.silent]
    exact List.Pairwise.nil
  · rw [h.silent]
    rfl
  · intro name
    rw [h.silent, h.absent]
    rfl

variable {changes : List Change}

theorem Tracks.run (h : Tracks t i s changes) (ms : List Mutation) (hms : AllToldTruly t i s ms) :
    Tracks t i (performAll s ms) (changes ++ committedChanges (makeNodeId t i) s ms) := by
  induction ms generalizing s changes with
  | nil => simpa [performAll, committedChanges] using h
  | cons m ms ih =>
    have hstep := h.step hms.1
    have hrest := ih hstep hms.2
    rw [List.append_assoc] at hrest
    exact hrest

theorem notOlder_total : Std.Total NotOlder where
  total a b := by
    unfold NotOlder
    rcases lt_trichotomy a.changedAt b.changedAt with h | h | h
    · exact .inr (.inl h)
    · rcases le_total a.receiptId b.receiptId with hr | hr
      · exact .inr (.inr ⟨h, hr⟩)
      · exact .inl (.inr ⟨h.symm, hr⟩)
    · exact .inl (.inl h)

theorem notOlder_trans : IsTrans EntityChangeHistoryItem NotOlder where
  trans a b c hab hbc := by
    unfold NotOlder at hab hbc ⊢
    rcases hab with hab | ⟨hab, hr⟩ <;> rcases hbc with hbc | ⟨hbc, hr'⟩
    · exact .inl (hbc.trans hab)
    · exact .inl (hbc ▸ hab)
    · exact .inl (hab ▸ hbc)
    · exact .inr ⟨hbc.trans hab, hr'.trans hr⟩

theorem flatMap_indexed (ht : t ≠ "") (hi : i ≠ "") (receipts : List Receipt) :
    (receipts.filter (fun r => (t, i) ∈ r.indexedEntities)).flatMap (receiptItems t (some i)) =
      recordedItems t i receipts := by
  induction receipts with
  | nil => rfl
  | cons r receipts ih =>
    have hcons : recordedItems t i (r :: receipts) =
        receiptItems t (some i) r ++ recordedItems t i receipts := rfl
    by_cases hr : (t, i) ∈ r.indexedEntities
    · simp only [List.filter_cons, hr, decide_true, if_true, List.flatMap_cons, ih, hcons]
    · have hnone : receiptItems t (some i) r = [] := by
        unfold receiptItems
        rw [List.filterMap_eq_nil_iff]
        intro n hn
        by_cases hkey : (n.entityType, n.entityId) = (t, i)
        · exfalso
          apply hr
          unfold Receipt.indexedEntities
          rw [List.mem_filter]
          refine ⟨List.mem_append_left _ (List.mem_map.mpr ⟨n, hn, hkey⟩), ?_⟩
          simp [ht, hi]
        · rw [Prod.mk.injEq, not_and] at hkey
          by_cases hnt : n.entityType = t
          · simp [historyItem, hnt, hkey hnt]
          · simp [historyItem, hnt]
      simp only [List.filter_cons, hr, decide_false, Bool.false_eq_true, if_false, ih, hcons,
        hnone, List.nil_append]

theorem Tracks.changesOf_eq (h : Tracks t i s changes) (ht : t ≠ "") :
    changesOf s.receipts t (some i) = (recordedItems t i s.receipts).reverse := by
  have hperm : ((getReceiptsForEntity s.receipts t i).flatMap (receiptItems t (some i))).Perm
      (recordedItems t i s.receipts) := by
    have hsorted : (getReceiptsForEntity s.receipts t i).Perm
        (s.receipts.filter (fun r => (t, i) ∈ r.indexedEntities)) :=
      List.perm_insertionSort _ _
    by_cases hi : i = ""
    · have hsilent : recordedItems t i s.receipts = [] := by
        by_contra hne
        exact h.named hne hi
      rw [hsilent, List.perm_nil, List.flatMap_eq_nil_iff]
      unfold recordedItems at hsilent
      rw [List.flatMap_eq_nil_iff] at hsilent
      intro r hr
      exact hsilent r (List.mem_filter.mp (hsorted.mem_iff.mp hr)).1
    · rw [← flatMap_indexed ht hi]
      exact hsorted.flatMap_right _
  have hsame : ∀ a ∈ recordedItems t i s.receipts, ∀ b ∈ recordedItems t i s.receipts,
      a.changedAt = b.changedAt → a = b := by
    intro a ha b hb
    refine List.Pairwise.forall_of_forall_of_flip
      (R := fun a b : EntityChangeHistoryItem => a.changedAt = b.changedAt → a = b)
      (fun _ _ _ => rfl) (h.ordered.imp ?_) (h.ordered.imp ?_) ha hb
    · intro x y hlt heq
      exact absurd heq hlt.ne
    · intro x y hlt heq
      exact absurd heq hlt.ne'
  have htotal := notOlder_total
  have htrans := notOlder_trans
  unfold changesOf
  refine @List.Perm.eq_of_pairwise _ NotOlder _ _ ?_ ?_ ?_ ?_
  · intro a b ha hb hab hba
    rw [List.mem_insertionSort, hperm.mem_iff] at ha
    rw [List.mem_reverse] at hb
    apply hsame a ha b hb
    rcases hab with hab | hab <;> rcases hba with hba | hba
    · exact absurd hba hab.asymm
    · exact hba.1
    · exact hab.1.symm
    · exact hba.1
  · exact List.pairwise_insertionSort _ _
  · rw [List.pairwise_reverse]
    apply h.ordered.imp
    intro a b hlt
    exact .inl hlt
  · exact (List.perm_insertionSort _ _).trans (hperm.trans (List.reverse_perm _).symm)

/-- For every sequence of calls that are told truly, the pages of the history
show exactly the changes of the committed writes, newest first, and replaying
the items from the oldest on gives the stored properties. -/
theorem history_of_told_writes {config : CoreConfig} {s : Instance} {ms : List Mutation}
    (ht : t ≠ "") (hconfig : config.entityTypes.get? t ≠ none) (hstart : Unwritten t i s)
    (hms : AllToldTruly t i s ms) :
    ∃ items : List EntityChangeHistoryItem,
      (∀ limit offset : Int, 1 ≤ limit → 0 ≤ offset →
        serviceGetEntityChangeHistory config (performAll s ms) t (some i) limit offset =
          .ok (historyPage items.reverse limit offset)) ∧
      items.Pairwise (fun a b => a.changedAt < b.changedAt) ∧
      items.map EntityChangeHistoryItem.change = committedChanges (makeNodeId t i) s ms ∧
      ∀ name, (replay items).get? name =
        ((performAll s ms).store.getEntity t i).bind (fun d => d.properties.get? name) := by
  have htracks := hstart.tracks.run ms hms
  refine ⟨recordedItems t i (performAll s ms).receipts, ?_, htracks.ordered, htracks.told,
    htracks.replayed⟩
  intro limit offset hlimit hoffset
  unfold serviceGetEntityChangeHistory
  rw [refuseIf_eq_ok (u := ()).mpr (not_lt.mpr hlimit),
    refuseIf_eq_ok (u := ()).mpr (not_lt.mpr hoffset), refuseIf_eq_ok (u := ()).mpr hconfig,
    htracks.changesOf_eq ht]
  rfl

end Run

def titleSchema : PropertySchema := { type := .string }

/-- A ceiling is infinite unless given. -/
def ceilingSchema : PropertySchema := { type := .float, default := some (.float .posInf) }

def gaugeConfig : CoreConfig where
  entityTypes := Dict.ofList [("Note", { properties := Dict.ofList [("title", titleSchema)] }),
    ("Gauge", { properties := Dict.ofList [("ceiling", ceilingSchema)] })]

def gaugeContext : WriteContext := { rt := plainRuntime, config := gaugeConfig }

def writeAt (start : Timestamp) (id : String) (entities : List EntityInstance) : Mutation where
  w := gaugeContext
  guards := { entity := fun _ _ _ => [], relationship := fun _ _ => [] }
  request := .addEntities entities
  receiptId := id
  clock := fun k => start + k
  createdAt := start

def note (title : String) : EntityInstance :=
  { entityType := "Note", entityId := "n1", properties := Dict.ofList [("title", .str title)] }

def gauge : EntityInstance := { entityType := "Gauge", entityId := "g1" }

def firstDraft : Mutation := writeAt 1 "RCP-1" [note "draft"]

def revision : Mutation := writeAt 2 "RCP-2" [note "final"]

/-- The same revision in one call with a gauge that cannot be stored. -/
def revisionWithGauge : Mutation := writeAt 2 "RCP-2" [note "final", gauge]

/-- The history and the changes of the stored rows, for note `n1`. -/
def noteHistory (ms : List Mutation) : Option (List Change × List Change) :=
  (serviceGetEntityChangeHistory gaugeConfig (performAll { store := {} } ms) "Note" (some "n1")
    50 0).toOption.map fun page =>
      (page.items.reverse.map EntityChangeHistoryItem.change,
        committedChanges (makeNodeId "Note" "n1") { store := {} } ms)

def drafted : Change := (.created, [{ property := "title", fromValue := .null,
                                      toValue := .str "draft" }])

def revised : Change := (.updated, [{ property := "title", fromValue := .str "draft",
                                      toValue := .str "final" }])

theorem unwritten_empty : Unwritten "Note" "n1" { store := {} } where
  wellFormed := WellFormed.empty
  absent := rfl
  silent := rfl

/-- The only member of these calls is the note, under its own name. -/
theorem toldTruly_note {s : Instance} {start : Timestamp} {id title : String}
    (hsave : ((writeAt start id [note title]).prepare s.store).bind
      ((writeAt start id [note title]).save s.store) |>.isOk)
    (hvalue : (validateEntity gaugeContext s.store "Note" "n1" (note title).properties {}).toOption.map
      (fun v => v.entity.properties) = some (note title).properties)
    (hrow : ∀ b ∈ (s.store.getEntity "Note" "n1").bind (fun d => d.properties.get? "title"),
      ((Value.str title).pyEq b = true ↔ Value.str title = b))
    (hclock : ∀ item ∈ recordedItems "Note" "n1" s.receipts, item.changedAt < start) :
    ToldTruly "Note" "n1" s (writeAt start id [note title]) where
  spelled := by
    intro e he _
    rw [List.mem_singleton.mp he]
    rfl
  saved := by
    intro p _ _ hprep _ _
    rw [hprep] at hsave
    cases hnext : (writeAt start id [note title]).save s.store p with
    | ok next => exact ⟨next, rfl⟩
    | error e =>
      change ((writeAt start id [note title]).save s.store p).isOk = true at hsave
      rw [hnext] at hsave
      cases hsave
  distinct := by
    rintro v ⟨e, he, -, hv⟩ name a ha
    rw [List.mem_singleton.mp he] at hv
    have hprops : v.entity.properties = (note title).properties := by
      change validateEntity gaugeContext s.store "Note" "n1" (note title).properties {} = _ at hv
      rw [hv] at hvalue
      exact Option.some.inj hvalue
    rw [hprops] at ha
    have hget : (note title).properties.get? name =
        if "title" = name then some (Value.str title) else none := rfl
    rw [hget] at ha
    split_ifs at ha with hname
    rw [Option.some.injEq] at ha
    subst hname ha
    refine ⟨by decide, ?_⟩
    intro d b hd hb
    apply hrow b
    rw [Option.mem_def, Option.bind_eq_some_iff]
    exact ⟨d, hd, hb⟩
  later := by
    intro item hitem k
    exact (hclock item hitem).trans_le (Nat.le_add_right start k)

/-- A draft and its revision are both told. -/
theorem history_of_told_revision :
    noteHistory [firstDraft, revision] = some ([drafted, revised], [drafted, revised]) ∧
    ∃ items : List EntityChangeHistoryItem,
      (∀ limit offset : Int, 1 ≤ limit → 0 ≤ offset →
        serviceGetEntityChangeHistory gaugeConfig
          (performAll { store := {} } [firstDraft, revision]) "Note" (some "n1") limit offset =
            .ok (historyPage items.reverse limit offset)) ∧
      items.Pairwise (fun a b => a.changedAt < b.changedAt) ∧
      items.map EntityChangeHistoryItem.change =
        committedChanges (makeNodeId "Note" "n1") { store := {} } [firstDraft, revision] ∧
      ∀ name, (replay items).get? name =
        ((performAll { store := {} } [firstDraft, revision]).store.getEntity "Note" "n1").bind
          (fun d => d.properties.get? name) := by
  refine ⟨by decide +kernel, ?_⟩
  apply history_of_told_writes (by decide) (by decide +kernel) unwritten_empty
  exact ⟨toldTruly_note (by decide +kernel) (by decide +kernel) (by decide +kernel)
      (by decide +kernel),
    toldTruly_note (by decide +kernel) (by decide +kernel) (by decide +kernel)
      (by decide +kernel), trivial⟩

/-- The revision is refused with its batch, yet the history tells it, and
replaying the history gives a title that was never stored. -/
theorem refused_write_enters_the_history :
    noteHistory [firstDraft, revisionWithGauge] = some ([drafted, revised], [drafted]) ∧
    (replay (changesOf (performAll { store := {} } [firstDraft, revisionWithGauge]).receipts
      "Note" (some "n1")).reverse).get? "title" = some (.str "final") ∧
    (((performAll { store := {} } [firstDraft, revisionWithGauge]).store.getEntity
      "Note" "n1").bind (fun d => d.properties.get? "title")) = some (.str "draft") := by
  decide +kernel

end Cruxible.ChangeHistory
