import Cruxible.EntityMatching
import Cruxible.Fallible
import Mathlib.Data.Nat.Pairing
import Mathlib.Data.Rat.Encodable
import Mathlib.Logic.Equiv.List

/-!
# What a diff explains

Two rows count as changed when the digests of their states differ, and the channels say
in what. The digests tell `1` from `1.0` and count evidence references; the channels
compare with `==` and by sets.
-/
namespace Cruxible.StateDiffs
open JsonValue PythonDict ComparisonStates

variable {hash : Value → String} {fromSide toSide : GraphDiffSide} {selector : GraphDiffSelector}
  {side : GraphDiffSide}

theorem edgeRows_state {rows : List EdgeRow} (h : edgeRows hash side selector = .ok rows)
    {r : EdgeRow} (hr : r ∈ rows) : ∃ e, r.state = relationshipComparisonState e := by
  unfold edgeRows at h
  have ⟨edges, _, hrows⟩ := Fallible.bind_eq_ok.mp h
  rw [Fallible.pure_eq_ok] at hrows
  rw [← hrows, List.mem_map] at hr
  have ⟨e, _, her⟩ := hr
  exact ⟨e.content, her ▸ rfl⟩

theorem entityRows_state {stubs : List (String × String)} {rows : Dict (String × String) EntityRow}
    (h : entityRows hash side selector stubs = .ok rows) {key : String × String} {r : EntityRow}
    (hr : rows.get? key = some r) : ∃ e, r.state = entityComparisonState e := by
  unfold entityRows at h
  have ⟨edges, _, hrows⟩ := Fallible.bind_eq_ok.mp h
  rw [Fallible.pure_eq_ok] at hrows
  rw [← hrows] at hr
  have hmem := Dict.mem_of_get?_ofList hr
  rw [List.mem_map] at hmem
  have ⟨e, _, her⟩ := hmem
  exact ⟨e.content, (Prod.mk.inj her).2 ▸ rfl⟩

variable {rows : List EdgeRow × List EdgeRow}

theorem edgeSides_eq_ok (h : edgeSides hash fromSide toSide selector = .ok rows) :
    edgeRows hash fromSide selector = .ok rows.1 ∧ edgeRows hash toSide selector = .ok rows.2 := by
  unfold edgeSides at h
  have ⟨fromRows, hf, h⟩ := Fallible.bind_eq_ok.mp h
  have ⟨toRows, ht, h⟩ := Fallible.bind_eq_ok.mp h
  rw [Fallible.pure_eq_ok] at h
  exact ⟨h ▸ hf, h ▸ ht⟩

theorem entitySides_eq_ok
    {rows : Dict (String × String) EntityRow × Dict (String × String) EntityRow}
    (h : entitySides hash fromSide toSide selector = .ok rows) :
    (∃ stubs, entityRows hash fromSide selector stubs = .ok rows.1) ∧
      ∃ stubs, entityRows hash toSide selector stubs = .ok rows.2 := by
  unfold entitySides at h
  have ⟨fromStubs, _, h⟩ := Fallible.bind_eq_ok.mp h
  have ⟨toStubs, _, h⟩ := Fallible.bind_eq_ok.mp h
  have ⟨fromRows, hf, h⟩ := Fallible.bind_eq_ok.mp h
  have ⟨toRows, ht, h⟩ := Fallible.bind_eq_ok.mp h
  rw [Fallible.pure_eq_ok] at h
  exact ⟨⟨fromStubs, h ▸ hf⟩, toStubs, h ▸ ht⟩

/-- No pair of edges that is compared is alike in all channels and differs in digest. -/
structure EdgesTold (fromSide toSide : GraphDiffSide) (fromRows toRows : List EdgeRow) : Prop where
  claims : ∀ r s, ClaimPair fromRows toRows r s → r.digest ≠ s.digest →
    ¬Alike r.state.parts s.state.parts true
  groups : ∀ k r s, LeftOver (bucketOf (keptFrom fromRows toRows) k)
    (bucketOf (keptTo fromRows toRows) k) r s → mayPair fromSide toSide r s = true →
    ¬Alike r.state.parts s.state.parts true

def EntitiesTold (fromRows toRows : Dict (String × String) EntityRow) : Prop :=
  ∀ key r s, fromRows.get? key = some r → toRows.get? key = some s → r.isStub = false →
    s.isStub = false → r.digest ≠ s.digest → ¬Alike r.state.parts s.state.parts false

theorem edges_explained_iff (h : edgeSides hash fromSide toSide selector = .ok rows) :
    (∀ item ∈ (collectEdges fromSide toSide rows.1 rows.2).changed, item.body.channels ≠ []) ↔
      EdgesTold fromSide toSide rows.1 rows.2 := by
  have ⟨hf, ht⟩ := edgeSides_eq_ok h
  have hchannels : ∀ r ∈ rows.1, ∀ s ∈ rows.2,
      ((changedChannels r.state.parts s.state.parts true).channels ≠ [] ↔
        ¬Alike r.state.parts s.state.parts true) := by
    intro r hr s hs
    have ⟨e, he⟩ := edgeRows_state hf hr
    have ⟨f, hf⟩ := edgeRows_state ht hs
    rw [he, hf, ne_eq, channels_eq_nil (relationship_comparable e f)]
  have hleft : ∀ {k r s}, LeftOver (bucketOf (keptFrom rows.1 rows.2) k)
      (bucketOf (keptTo rows.1 rows.2) k) r s → r ∈ rows.1 ∧ s ∈ rows.2 := by
    intro k r s hl
    have hr := (List.mem_filter.mp (List.mem_of_getLast? hl.fromRow)).1
    have hs := (List.mem_filter.mp (List.mem_of_head? hl.toRow)).1
    exact ⟨(List.mem_filter.mp (mem_bucketOf.mp hr).1).1,
      (List.mem_filter.mp (mem_bucketOf.mp hs).1).1⟩
  constructor
  case mp =>
    intro hall
    constructor
    case claims =>
      intro r s hpair hd
      exact (hchannels r hpair.fromRow s hpair.toRow).mp
        (hall _ (mem_changed.mpr (.inl ⟨r, s, hpair, hd, rfl⟩)))
    case groups =>
      intro k r s hl hpair
      have ⟨hr, hs⟩ := hleft hl
      exact (hchannels r hr s hs).mp (hall _ (mem_changed.mpr (.inr ⟨k, r, s, hl, hpair, rfl⟩)))
  case mpr =>
    intro htold item hitem
    rcases mem_changed.mp hitem with ⟨r, s, hpair, hd, rfl⟩ | ⟨k, r, s, hl, hpair, rfl⟩
    · exact (hchannels r hpair.fromRow s hpair.toRow).mpr (htold.claims r s hpair hd)
    · have ⟨hr, hs⟩ := hleft hl
      exact (hchannels r hr s hs).mpr (htold.groups k r s hl hpair)

theorem entities_explained_iff
    {rows : Dict (String × String) EntityRow × Dict (String × String) EntityRow}
    (h : entitySides hash fromSide toSide selector = .ok rows) :
    (∀ item ∈ (collectEntities rows.1 rows.2).result.changed, item.body.channels ≠ []) ↔
      EntitiesTold rows.1 rows.2 := by
  have ⟨⟨_, hf⟩, _, ht⟩ := entitySides_eq_ok h
  have hchannels : ∀ {key r s}, rows.1.get? key = some r → rows.2.get? key = some s →
      ((changedChannels r.state.parts s.state.parts false).channels ≠ [] ↔
        ¬Alike r.state.parts s.state.parts false) := by
    intro key r s hr hs
    have ⟨e, he⟩ := entityRows_state hf hr
    have ⟨f, hf⟩ := entityRows_state ht hs
    rw [he, hf, ne_eq, channels_eq_nil (entity_comparable e f)]
  constructor
  case mp =>
    intro hall key r s hr hs hrstub hsstub hd
    exact (hchannels hr hs).mp
      (hall _ (mem_changedEntities.mpr ⟨key, r, s, hr, hs, hrstub, hsstub, hd, rfl⟩))
  case mpr =>
    intro htold item hitem
    have ⟨key, r, s, hr, hs, hrstub, hsstub, hd, heq⟩ := mem_changedEntities.mp hitem
    rw [heq]
    exact (hchannels hr hs).mpr (htold key r s hr hs hrstub hsstub hd)

/-- Every item that a diff lists as changed names a channel. -/
def Explained (hash : Value → String) (fromSide toSide : GraphDiffSide)
    (selector : GraphDiffSelector) : Prop :=
  (∀ result, diffEdges hash fromSide toSide selector = .ok result →
    ∀ item ∈ result.changed, item.body.channels ≠ []) ∧
  ∀ result, diffEntities hash fromSide toSide selector = .ok result →
    ∀ item ∈ result.changed, item.body.channels ≠ []

theorem forall_ok_map {α β : Type} {x : Except String α} {f : α → β} {P : β → Prop} :
    (∀ b, x.map f = .ok b → P b) ↔ ∀ a, x = .ok a → P (f a) := by
  cases x with
  | error e =>
    constructor
    · intro _ a ha
      cases ha
    · intro _ b hb
      cases hb
  | ok a =>
    constructor
    · intro h b hb
      cases hb
      exact h _ rfl
    · intro h b hb
      cases hb
      exact h a rfl

/-- The changes of a diff are explained exactly when none of the pairs that it compares
differs in digest and agrees in every channel, or changed items are not listed. -/
theorem changes_are_explained_iff (hash : Value → String) (fromSide toSide : GraphDiffSide)
    (selector : GraphDiffSelector) : Explained hash fromSide toSide selector ↔
      (selector.wantsBucket .changed = true →
        (∀ rows, edgeSides hash fromSide toSide selector = .ok rows →
          EdgesTold fromSide toSide rows.1 rows.2) ∧
        ∀ rows, entitySides hash fromSide toSide selector = .ok rows →
          EntitiesTold rows.1 rows.2) := by
  unfold Explained
  rw [diffEdges_eq, diffEntities_eq, forall_ok_map, forall_ok_map]
  have hedges : ∀ rows : List EdgeRow × List EdgeRow, ∀ item : EdgeChangedItem,
      item ∈ (applySelector (sortEdgeItems (collectEdges fromSide toSide rows.1 rows.2))
        selector).changed ↔ selector.wantsBucket .changed = true ∧
          item ∈ (collectEdges fromSide toSide rows.1 rows.2).changed := by
    intro rows item
    unfold applySelector sortEdgeItems
    dsimp only
    split_ifs with hwants
    · simp [hwants, (sortedBy_perm _ _).mem_iff]
    · simp [hwants]
  have hentities : ∀ enabled,
      ∀ rows : Dict (String × String) EntityRow × Dict (String × String) EntityRow,
      ∀ item : EntityChangedItem, item ∈ (applySelector (sortEntityItems enabled
        (collectEntities rows.1 rows.2)) selector).changed ↔
          selector.wantsBucket .changed = true ∧
            item ∈ (collectEntities rows.1 rows.2).result.changed := by
    intro enabled rows item
    unfold applySelector sortEntityItems
    dsimp only
    split_ifs with hwants
    · simp [hwants, (sortedBy_perm _ _).mem_iff]
    · simp [hwants]
  simp only [hedges, hentities]
  constructor
  case mp =>
    intro ⟨he, hn⟩ hwants
    exact ⟨fun rows hrows => (edges_explained_iff hrows).mp fun item hitem =>
        he rows hrows item ⟨hwants, hitem⟩,
      fun rows hrows => (entities_explained_iff hrows).mp fun item hitem =>
        hn rows hrows item ⟨hwants, hitem⟩⟩
  case mpr =>
    intro h
    constructor
    · intro rows hrows item ⟨hwants, hitem⟩
      exact (edges_explained_iff hrows).mpr ((h hwants).1 rows hrows) item hitem
    · intro rows hrows item ⟨hwants, hitem⟩
      exact (entities_explained_iff hrows).mpr ((h hwants).2 rows hrows) item hitem

/-- A state that has only a status. -/
def statusOnly (status : String) : AxisDump where
  fields := Dict.ofList [("status", .str status)]
  noNull := by
    intro k h
    have hmem := Dict.mem_of_get?_ofList h
    simp at hmem
  status := by
    rw [ne_eq, Dict.get?_eq_none]
    exact not_not_intro List.mem_cons_self

/-- One edge with one property. -/
def weighted (weight : Value) : GraphDiffSide where
  graph := {
    entities := []
    edges := [{
      fromNode := "Asset:a"
      toNode := "Product:p"
      key := .int 0
      relationshipType := "runs"
      claimId := some "clm_1"
      content := {
        properties := Dict.ofList [("weight", weight)]
        review := statusOnly "approved"
        lifecycle := statusOnly "active"
        groupOverride := false
        provenance := none
        evidenceRefKeys := [] } }] }
  ownership := .unknown

def weightedRow (hash : Value → String) (weight : Value) : EdgeRow :=
  edgeRow hash .unknown {
    fromType := "Asset"
    fromId := "a"
    toType := "Product"
    toId := "p"
    relationshipType := "runs"
    key := .int 0
    claimId := some "clm_1"
    content := {
      properties := Dict.ofList [("weight", weight)]
      review := statusOnly "approved"
      lifecycle := statusOnly "active"
      groupOverride := false
      provenance := none
      evidenceRefKeys := [] } }

theorem weighted_rows (hash : Value → String) (weight : Value) :
    edgeRows hash (weighted weight) {} = .ok [weightedRow hash weight] := by
  have hfrom : GraphImages.splitNodeId "Asset:a" = some ("Asset", "a") := by decide +kernel
  have hto : GraphImages.splitNodeId "Product:p" = some ("Product", "p") := by decide +kernel
  have hraw : iterEdgesRaw (weighted weight).graph = .ok [{
      fromType := "Asset", fromId := "a", toType := "Product", toId := "p",
      relationshipType := "runs", key := .int 0, claimId := some "clm_1",
      content := {
        properties := Dict.ofList [("weight", weight)], review := statusOnly "approved",
        lifecycle := statusOnly "active", groupOverride := false, provenance := none,
        evidenceRefKeys := [] } }] := by
    unfold iterEdgesRaw weighted
    rw [List.mapM_cons, rawEdge, if_neg (show ¬"runs" = "" by decide), hfrom, hto]
    rfl
  unfold edgeRows
  rw [hraw]
  rfl

/-- An edge whose weight is rewritten from `1` to `1.0` is listed as changed in nothing. -/
theorem respelled_not_explained (h : Function.Injective hash) :
    ¬Explained hash (weighted (.int 1)) (weighted (.float (.finite 1))) {} := by
  intro ⟨hedges, _⟩
  have hsides : edgeSides hash (weighted (.int 1)) (weighted (.float (.finite 1))) {} =
      .ok ([weightedRow hash (.int 1)], [weightedRow hash (.float (.finite 1))]) := by
    unfold edgeSides
    rw [weighted_rows, weighted_rows]
    rfl
  have hdigest : (weightedRow hash (.int 1)).digest ≠ (weightedRow hash (.float (.finite 1))).digest := by
    intro hsame
    have hcanonical := h hsame
    revert hcanonical
    decide +kernel
  have hpair : ClaimPair [weightedRow hash (.int 1)] [weightedRow hash (.float (.finite 1))]
      (weightedRow hash (.int 1)) (weightedRow hash (.float (.finite 1))) :=
    ⟨List.mem_cons_self, List.mem_cons_self, ⟨"clm_1", rfl, rfl, rfl, rfl⟩, rfl⟩
  have halike : Alike (weightedRow hash (.int 1)).state.parts
      (weightedRow hash (.float (.finite 1))).state.parts true := by
    constructor
    case properties =>
      change Value.Respelled (objectOf (normalizeProperties (Dict.ofList [("weight", .int 1)])))
        (objectOf (normalizeProperties (Dict.ofList [("weight", .float (.finite 1))])))
      decide +kernel
    case review => exact fun _ => rfl
    case lifecycle => rfl
    case provenance => rfl
    case evidence => exact fun _ => Iff.rfl
    case groupOverride => rfl
    case otherAnnotations => rfl
  apply ((edges_explained_iff hsides).mp ?_).claims _ _ hpair hdigest halike
  intro item hitem
  rw [diffEdges_eq, hsides] at hedges
  apply hedges _ rfl
  exact (sortedBy_perm _ _).mem_iff.mpr hitem

def floatCode : PyFloat → Nat
  | .finite q => Nat.pair 0 (Encodable.encode q)
  | .negZero => Nat.pair 1 0
  | .posInf => Nat.pair 2 0
  | .negInf => Nat.pair 3 0
  | .nan => Nat.pair 4 0

def textCode (s : String) : Nat := Encodable.encode (s.toList.map Char.toNat)

mutual

def valueCode : Value → Nat
  | .null => Nat.pair 0 0
  | .bool b => Nat.pair 1 (if b then 1 else 0)
  | .int n => Nat.pair 2 (Encodable.encode n)
  | .float f => Nat.pair 3 (floatCode f)
  | .str s => Nat.pair 4 (textCode s)
  | .array items => Nat.pair 5 (itemsCode items)
  | .object entries => Nat.pair 6 (entriesCode entries)

def itemsCode : List Value → Nat
  | [] => 0
  | v :: vs => Nat.pair (valueCode v) (itemsCode vs) + 1

def entriesCode : List (String × Value) → Nat
  | [] => 0
  | (k, v) :: es => Nat.pair (textCode k) (Nat.pair (valueCode v) (entriesCode es)) + 1

end

theorem floatCode_injective : Function.Injective floatCode := by
  intro f g h
  cases f with
  | finite q =>
    cases g with
    | finite q' => simpa [floatCode, Nat.pair_eq_pair] using h
    | negZero | posInf | negInf | nan => simp [floatCode, Nat.pair_eq_pair] at h
  | negZero | posInf | negInf | nan => cases g <;> simp [floatCode, Nat.pair_eq_pair] at h ⊢

theorem textCode_injective : Function.Injective textCode := by
  intro s t h
  have hlist := Encodable.encode_injective h
  have hchar : Function.Injective Char.toNat := fun a b hab => Char.toNat_inj.mp hab
  exact String.toList_inj.mp (List.map_injective_iff.mpr hchar hlist)

mutual

theorem valueCode_inj : ∀ v w : Value, valueCode v = valueCode w → v = w
  | .null, w, h => by cases w <;> simp [valueCode, Nat.pair_eq_pair] at h ⊢
  | .bool b, w, h => by
      cases w <;> simp [valueCode, Nat.pair_eq_pair] at h ⊢
      rename_i c
      cases b <;> cases c <;> simp at h ⊢
  | .int n, w, h => by
      cases w <;> simp [valueCode, Nat.pair_eq_pair] at h ⊢
      exact h
  | .float f, w, h => by
      cases w <;> simp [valueCode, Nat.pair_eq_pair] at h ⊢
      exact floatCode_injective h
  | .str s, w, h => by
      cases w <;> simp [valueCode, Nat.pair_eq_pair] at h ⊢
      exact textCode_injective h
  | .array items, w, h => by
      cases w <;> simp [valueCode, Nat.pair_eq_pair] at h ⊢
      exact itemsCode_inj items _ h
  | .object entries, w, h => by
      cases w <;> simp [valueCode, Nat.pair_eq_pair] at h ⊢
      exact entriesCode_inj entries _ h

theorem itemsCode_inj : ∀ vs ws : List Value, itemsCode vs = itemsCode ws → vs = ws
  | [], ws, h => by cases ws <;> simp [itemsCode] at h ⊢
  | v :: vs, ws, h => by
      cases ws with
      | nil => simp [itemsCode] at h
      | cons w ws =>
        rw [itemsCode, itemsCode, Nat.add_right_cancel_iff, Nat.pair_eq_pair] at h
        rw [valueCode_inj v w h.1, itemsCode_inj vs ws h.2]

theorem entriesCode_inj : ∀ es fs : List (String × Value), entriesCode es = entriesCode fs →
    es = fs
  | [], fs, h => by
      cases fs with
      | nil => rfl
      | cons f fs => simp [entriesCode] at h
  | (k, v) :: es, fs, h => by
      cases fs with
      | nil => simp [entriesCode] at h
      | cons f fs =>
        have ⟨l, w⟩ := f
        rw [entriesCode, entriesCode, Nat.add_right_cancel_iff, Nat.pair_eq_pair,
          Nat.pair_eq_pair] at h
        rw [textCode_injective h.1, valueCode_inj v w h.2.1, entriesCode_inj es fs h.2.2]

end

/-- The code of a value, as a text of that length. -/
def codeText (v : Value) : String := String.ofList (List.replicate (valueCode v) 'a')

theorem codeText_injective : Function.Injective codeText := by
  intro v w h
  have hlist := congrArg String.toList h
  rw [codeText, codeText, String.toList_ofList, String.toList_ofList] at hlist
  have hlength := congrArg List.length hlist
  rw [List.length_replicate, List.length_replicate] at hlength
  exact valueCode_inj v w hlength

theorem changes_go_unexplained : ¬∀ hash : Value → String, Function.Injective hash →
    ∀ fromSide toSide selector, Explained hash fromSide toSide selector :=
  fun h => respelled_not_explained codeText_injective (h codeText codeText_injective _ _ _)

end Cruxible.StateDiffs
