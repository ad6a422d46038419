import Cruxible.FallibleLoops
import Cruxible.Groupings
import Cruxible.WorkflowRuns
import Mathlib.Data.List.ProdSigma

/-!
# Joins by key

The join step lists the rows of its right side by their canonical keys and looks
every row of its left side up there. It is the join over pairs: the pairs of rows
with one non-null key, by the left side first. Null keys are counted on the right
and passed over on the left.
-/
namespace Cruxible.HashJoins
open JsonValue PythonDict PropertyValidation Fallible ReadMetadata Groupings
open WorkflowRuns hiding joinItems

variable (env : RunEnv) (stepId : String) (spec : JoinItemsSpec) (outputs : Outputs)

/-- The right side in the making: its rows by key, and how many have none. -/
structure RightRows where
  index : Dict Value (List Object) := ∅
  skipped : Nat := 0

def rowScope (env : RunEnv) (outputs : Outputs) (row : Object) : Scope :=
  { input := env.input, outputs := outputs, item := some (.object row) }

def addRight (side : RightRows) (item : Value) : Except CoreError RightRows := do
  let row ← ensureItemMapping stepId "join_items right_items" item
  let key ← (rowScope env outputs row).resolveValue spec.rightKey
  if key = .null then pure { side with skipped := side.skipped + 1 }
  else do
    let compared ← joinKey key
    pure { side with index := push side.index (compared, row) }

/-- The output of the left side in the making. -/
structure LeftRows where
  items : List Object := []
  matched : Nat := 0

/-- The fields of a joined row. -/
def joinedRow (left : Object) (key : Value) (right : Object) : Except CoreError Object :=
  (rowScope env outputs
    [("left", .object left), ("right", .object right), ("join_key", key)]).resolveEntries
      spec.fields

def addLeft (index : Dict Value (List Object)) (side : LeftRows) (item : Value) :
    Except CoreError LeftRows := do
  let row ← ensureItemMapping stepId "join_items left_items" item
  let key ← (rowScope env outputs row).resolveValue spec.leftKey
  if key = .null then pure side
  else do
    let compared ← joinKey key
    let found := (index.get? compared).getD []
    let rows ← found.mapM (joinedRow env spec outputs row key)
    pure { items := side.items ++ rows, matched := side.matched + if found = [] then 0 else 1 }

/-- The items and the counts, with the metadata of the two sides. -/
def joinOutput (items : List Object) (leftCount rightCount skipped matched : Nat) :
    Except CoreError Object := do
  let left := sourceReadMetadata spec.leftItems outputs
  let right := sourceReadMetadata spec.rightItems outputs
  let merged ← mergeReadMetadata [left, right]
  pure (attachSourceMetadata
    ([("items", .array (items.map .object)), ("left_count", count leftCount),
      ("right_count", count rightCount), ("skipped_right_count", count skipped),
      ("matched_left_count", count matched), ("output_count", count items.length)] ++
      joinSides left right) merged)

/-- `join_items`. -/
def joinItems : Except CoreError Object := do
  let sc : Scope := { input := env.input, outputs := outputs }
  let leftItems ← resolveStepItems sc spec.leftItems
  let rightItems ← resolveStepItems sc spec.rightItems
  let right ← rightItems.foldlM (addRight env stepId spec outputs) {}
  let left ← leftItems.foldlM (addLeft env stepId spec outputs right.index) {}
  joinOutput spec outputs left.items leftItems.length rightItems.length right.skipped left.matched

/-- A row and its key. -/
structure Keyed where
  row : Object
  key : Value

/-- A row of one side with its key, which must have a canonical text. -/
def keyed (kind : String) (template : Value) (item : Value) : Except CoreError Keyed := do
  let row ← ensureItemMapping stepId kind item
  let key ← (rowScope env outputs row).resolveValue template
  refuseIf (key.finite = false) (.value "Out of range float values are not JSON compliant")
  pure { row := row, key := key }

/-- Both keys are there and have one canonical text. -/
def Keyed.Matches (l r : Keyed) : Prop :=
  l.key ≠ .null ∧ r.key ≠ .null ∧ l.key.canonical = r.key.canonical

instance (l r : Keyed) : Decidable (l.Matches r) := inferInstanceAs (Decidable (_ ∧ _ ∧ _))

/-- The matching pairs, by the left side first and then by the right. -/
def matchingPairs (lefts rights : List Keyed) : List (Keyed × Keyed) :=
  (lefts ×ˢ rights).filter fun p => p.1.Matches p.2

/-- The join over pairs, with the sizes of the sets that the counts stand for. -/
def nestedLoopJoin : Except CoreError Object := do
  let sc : Scope := { input := env.input, outputs := outputs }
  let leftItems ← resolveStepItems sc spec.leftItems
  let rightItems ← resolveStepItems sc spec.rightItems
  let lefts ← leftItems.mapM (keyed env stepId outputs "join_items left_items" spec.leftKey)
  let rights ← rightItems.mapM (keyed env stepId outputs "join_items right_items" spec.rightKey)
  let items ← (matchingPairs lefts rights).mapM fun p =>
    joinedRow env spec outputs p.1.row p.1.key p.2.row
  joinOutput spec outputs items lefts.length rights.length
    (rights.filter fun r => r.key = .null).length
    (lefts.filter fun l => rights.any fun r => l.Matches r).length

variable {env stepId spec outputs}

/-- A row of the right side once its key is known. -/
def addKeyed (side : RightRows) (r : Keyed) : RightRows :=
  if r.key = .null then { side with skipped := side.skipped + 1 }
  else { side with index := push side.index (r.key.canonical, r.row) }

theorem addRight_eq (side : RightRows) (item : Value) :
    addRight env stepId spec outputs side item =
      (keyed env stepId outputs "join_items right_items" spec.rightKey item).map
        (addKeyed side) := by
  unfold addRight keyed
  cases ensureItemMapping stepId "join_items right_items" item with
  | error e => rfl
  | ok row =>
    change ((rowScope env outputs row).resolveValue spec.rightKey >>= _) =
      Except.map _ ((rowScope env outputs row).resolveValue spec.rightKey >>= _)
    cases (rowScope env outputs row).resolveValue spec.rightKey with
    | error e => rfl
    | ok key =>
      by_cases hnull : key = .null
      · subst hnull
        rfl
      · by_cases hfinite : key.finite = true
        · simp [bind, Except.bind, pure, Except.pure, hnull, joinKey, hfinite, refuseIf,
            addKeyed]
        · simp [bind, Except.bind, hnull, joinKey, hfinite, refuseIf]

/-- The joined rows of a row of the left side, by the index. -/
def rowsOf (env : RunEnv) (spec : JoinItemsSpec) (outputs : Outputs)
    (index : Dict Value (List Object)) (l : Keyed) : Except CoreError (List Object) :=
  if l.key = .null then .ok []
  else ((index.get? l.key.canonical).getD []).mapM (joinedRow env spec outputs l.row l.key)

def addRows (side : LeftRows) (rows : List Object) : LeftRows :=
  { items := side.items ++ rows, matched := side.matched + if rows = [] then 0 else 1 }

theorem addLeft_eq (index : Dict Value (List Object)) (side : LeftRows) (item : Value) :
    addLeft env stepId spec outputs index side item =
      (keyed env stepId outputs "join_items left_items" spec.leftKey item >>=
        rowsOf env spec outputs index).map (addRows side) := by
  unfold addLeft keyed
  cases ensureItemMapping stepId "join_items left_items" item with
  | error e => rfl
  | ok row =>
    change ((rowScope env outputs row).resolveValue spec.leftKey >>= _) = Except.map _
      (((rowScope env outputs row).resolveValue spec.leftKey >>= _) >>= _)
    cases (rowScope env outputs row).resolveValue spec.leftKey with
    | error e => rfl
    | ok key =>
      by_cases hnull : key = .null
      · subst hnull
        simp [bind, Except.bind, pure, Except.pure, refuseIf, Value.finite, rowsOf, addRows]
      · by_cases hfinite : key.finite = true
        · simp only [bind, Except.bind, pure, Except.pure, hnull, joinKey, hfinite, refuseIf,
            rowsOf, if_false, if_true, Bool.true_eq_false]
          cases hrows : ((index.get? key.canonical).getD []).mapM
              (joinedRow env spec outputs row key) with
          | error e => rfl
          | ok rows =>
            have hempty : (index.get? key.canonical).getD [] = [] ↔ rows = [] := by
              rw [← List.length_eq_zero_iff, ← List.length_eq_zero_iff, mapM_ok_length hrows]
            simp only [map_ok, addRows, hempty]
        · simp [bind, Except.bind, hnull, joinKey, hfinite, refuseIf]

/-- The rows that have a key, with its canonical form. -/
def presentRows (rights : List Keyed) : List (Value × Object) :=
  (rights.filter fun r => r.key ≠ .null).map fun r => (r.key.canonical, r.row)

theorem foldl_addKeyed (rights : List Keyed) (side : RightRows) :
    rights.foldl addKeyed side =
      { index := (presentRows rights).foldl push side.index
        skipped := side.skipped + (rights.filter fun r => r.key = .null).length } := by
  induction rights generalizing side with
  | nil => rfl
  | cons r rights ih =>
    rw [List.foldl_cons, ih]
    by_cases hnull : r.key = .null
    · simp [addKeyed, hnull, presentRows, Nat.add_assoc, Nat.add_comm 1]
    · simp [addKeyed, hnull, presentRows]

theorem foldl_addRows (rows : List (List Object)) (side : LeftRows) :
    rows.foldl addRows side =
      { items := side.items ++ rows.flatten
        matched := side.matched + (rows.filter fun r => r ≠ []).length } := by
  induction rows generalizing side with
  | nil => simp
  | cons r rows ih =>
    rw [List.foldl_cons, ih]
    by_cases hempty : r = []
    · simp [addRows, hempty]
    · simp [addRows, hempty, Nat.add_assoc, Nat.add_comm 1]

theorem rowsOf_group (rights : List Keyed) :
    rowsOf env spec outputs (group (presentRows rights)) = fun l =>
      (rights.filter fun r => l.Matches r).mapM fun r =>
        joinedRow env spec outputs l.row l.key r.row := by
  funext l
  unfold rowsOf
  split_ifs with hnull
  · simp [Keyed.Matches, hnull, pure, Except.pure]
  · have hmembers : members (presentRows rights) l.key.canonical =
        (rights.filter fun r => l.Matches r).map Keyed.row := by
      rw [members, presentRows, List.filter_map, List.map_map, List.filter_filter]
      congr 1
      apply List.filter_congr
      intro r _
      simp [Keyed.Matches, hnull, Bool.and_comm, eq_comm]
    rw [getD_group, hmembers, List.mapM_map]
    rfl

theorem matchingPairs_eq (lefts rights : List Keyed) :
    matchingPairs lefts rights =
      lefts.flatMap fun l => (rights.filter fun r => l.Matches r).map fun r => (l, r) := by
  unfold matchingPairs
  change ((lefts.flatMap fun l => rights.map (Prod.mk l)).filter _) = _
  rw [List.filter_flatMap]
  congr 1
  funext l
  rw [List.filter_map]
  rfl

variable {rights : List Keyed} {items : List Value}

theorem matched_length {lefts : List Keyed} {rows : List (List Object)}
    (h : (lefts.mapM fun l => (rights.filter fun r => l.Matches r).mapM fun r =>
      joinedRow env spec outputs l.row l.key r.row) = .ok rows) :
    (rows.filter fun r => r ≠ []).length =
      (lefts.filter fun l => rights.any fun r => l.Matches r).length := by
  induction lefts generalizing rows with
  | nil =>
    obtain rfl := mapM_nil_eq_ok.mp h
    rfl
  | cons l lefts ih =>
    obtain ⟨found, more, hfound, hmore, rfl⟩ := mapM_cons_eq_ok.mp h
    have hempty : found ≠ [] ↔ rights.any (fun r => l.Matches r) = true := by
      rw [← List.length_pos_iff, mapM_ok_length hfound, List.length_pos_iff, ne_eq,
        List.filter_eq_nil_iff, List.any_eq_true]
      push Not
      rfl
    have hmatched := ih hmore
    by_cases hany : rights.any (fun r => l.Matches r) = true
    · rw [List.filter_cons_of_pos (by simpa using hempty.mpr hany), List.length_cons, hmatched,
        List.filter_cons, if_pos hany, List.length_cons]
    · rw [List.filter_cons_of_neg (by simpa using mt hempty.mp hany), hmatched,
        List.filter_cons, if_neg hany]

theorem foldlM_addRight {side : RightRows} :
    items.foldlM (addRight env stepId spec outputs) {} = .ok side ↔
      ∃ rights, items.mapM (keyed env stepId outputs "join_items right_items" spec.rightKey) =
          .ok rights ∧
        side = { index := group (presentRows rights)
                 skipped := (rights.filter fun r => r.key = .null).length } := by
  have hturn : ∀ side item, addRight env stepId spec outputs side item = _ := addRight_eq
  rw [foldlM_eq_map hturn, map_eq_ok]
  simp only [foldl_addKeyed, Nat.zero_add, eq_comm, group]

theorem foldlM_addLeft {side : LeftRows} :
    items.foldlM (addLeft env stepId spec outputs (group (presentRows rights))) {} = .ok side ↔
      ∃ lefts rows, items.mapM (keyed env stepId outputs "join_items left_items" spec.leftKey) =
          .ok lefts ∧
        (lefts.mapM fun l => (rights.filter fun r => l.Matches r).mapM fun r =>
          joinedRow env spec outputs l.row l.key r.row) = .ok rows ∧
        side = { items := rows.flatten, matched := (rows.filter fun r => r ≠ []).length } := by
  have hturn : ∀ side item,
      addLeft env stepId spec outputs (group (presentRows rights)) side item = _ := addLeft_eq _
  rw [foldlM_eq_map hturn, map_eq_ok]
  simp only [mapM_bind_eq_ok, foldl_addRows, rowsOf_group, List.nil_append, Nat.zero_add]
  constructor
  · rintro ⟨rows, ⟨lefts, hlefts, hrows⟩, rfl⟩
    exact ⟨lefts, rows, hlefts, hrows, rfl⟩
  · rintro ⟨lefts, rows, hlefts, hrows, rfl⟩
    exact ⟨rows, ⟨lefts, hlefts, hrows⟩, rfl⟩

theorem canonical_eq_null {v : Value} : v.canonical = .null ↔ v = .null := by
  cases v <;> simp [Value.canonical]

theorem rightIndex_eq_ok {right : List (Value × Object)} :
    rightIndex env stepId spec outputs items = .ok right ↔
      ∃ rights, items.mapM (keyed env stepId outputs "join_items right_items" spec.rightKey) =
          .ok rights ∧ rights.map (fun r => (r.key.canonical, r.row)) = right := by
  have hrow : rightIndex env stepId spec outputs items = items.mapM fun item =>
      keyed env stepId outputs "join_items right_items" spec.rightKey item >>= fun r =>
        pure (r.key.canonical, r.row) := by
    unfold rightIndex
    congr 1
    funext item
    unfold keyed
    cases ensureItemMapping stepId "join_items right_items" item with
    | error e => rfl
    | ok row =>
      change ((rowScope env outputs row).resolveValue spec.rightKey >>= _) =
        (((rowScope env outputs row).resolveValue spec.rightKey >>= _) >>= _)
      cases (rowScope env outputs row).resolveValue spec.rightKey with
      | error e => rfl
      | ok key =>
        by_cases hfinite : key.finite = true
        · simp [bind, Except.bind, pure, Except.pure, joinKey, hfinite, refuseIf]
        · simp [bind, Except.bind, joinKey, hfinite, refuseIf]
  rw [hrow, mapM_bind_eq_ok]
  simp only [List.mapM_pure, pure_eq_ok]

theorem joinRow_eq :
    joinRow env stepId spec outputs (rights.map fun r => (r.key.canonical, r.row)) = fun item =>
      keyed env stepId outputs "join_items left_items" spec.leftKey item >>= fun l =>
        (rights.filter fun r => l.Matches r).mapM fun r =>
          joinedRow env spec outputs l.row l.key r.row := by
  funext item
  unfold joinRow keyed
  cases ensureItemMapping stepId "join_items left_items" item with
  | error e => rfl
  | ok row =>
    change ((rowScope env outputs row).resolveValue spec.leftKey >>= _) =
      (((rowScope env outputs row).resolveValue spec.leftKey >>= _) >>= _)
    cases (rowScope env outputs row).resolveValue spec.leftKey with
    | error e => rfl
    | ok key =>
      by_cases hfinite : key.finite = true
      · have hfound : (if key = .null then [] else
            (rights.map fun r => (r.key.canonical, r.row)).filter fun r =>
              r.1 ≠ .null && r.1 = key.canonical) =
            (rights.filter fun r => Keyed.Matches ⟨row, key⟩ r).map fun r =>
              (r.key.canonical, r.row) := by
          split_ifs with hnull
          · simp [Keyed.Matches, hnull]
          · rw [List.filter_map]
            congr 1
            apply List.filter_congr
            intro r _
            have hcomm : (r.key.canonical = key.canonical) = (key.canonical = r.key.canonical) :=
              propext eq_comm
            simp [Keyed.Matches, hnull, canonical_eq_null, hcomm]
        simp only [bind, Except.bind, joinKey, hfinite, refuseIf, if_true, Bool.true_eq_false,
          if_false, pure, Except.pure, hfound, List.mapM_map]
        rfl
      · simp [bind, Except.bind, joinKey, hfinite, refuseIf]

theorem skipped_length (rights : List Keyed) :
    ((rights.map fun r => (r.key.canonical, r.row)).filter fun r => r.1 = .null).length =
      (rights.filter fun r => r.key = .null).length := by
  rw [List.filter_map, List.length_map]
  simp only [Function.comp_def, canonical_eq_null]

/-- The join of the run model, which searches the rows of the right side each time,
is this step. -/
theorem joinItems_eq (output : Object) :
    WorkflowRuns.joinItems env stepId spec outputs = .ok output ↔
      joinItems env stepId spec outputs = .ok output := by
  have hnonempty (rows : List (List Object)) :
      (rows.filter fun r => !r.isEmpty) = rows.filter fun r => r ≠ [] := by
    apply List.filter_congr
    intro r _
    cases r <;> rfl
  unfold WorkflowRuns.joinItems joinItems
  simp only [bind_eq_ok]
  refine exists_congr fun leftItems => and_congr_right fun _ => exists_congr fun rightItems =>
    and_congr_right fun _ => ?_
  constructor
  · rintro ⟨right, hright, rows, hrows, hout⟩
    obtain ⟨rights, hrights, rfl⟩ := rightIndex_eq_ok.mp hright
    rw [joinRow_eq, mapM_bind_eq_ok] at hrows
    obtain ⟨lefts, hlefts, hrows⟩ := hrows
    refine ⟨_, foldlM_addRight.mpr ⟨rights, hrights, rfl⟩, _,
      foldlM_addLeft.mpr ⟨lefts, rows, hlefts, hrows, rfl⟩, ?_⟩
    rw [skipped_length, hnonempty] at hout
    exact bind_eq_ok.mpr hout
  · rintro ⟨right, hright, left, hleft, hout⟩
    obtain ⟨rights, hrights, rfl⟩ := foldlM_addRight.mp hright
    obtain ⟨lefts, rows, hlefts, hrows, rfl⟩ := foldlM_addLeft.mp hleft
    refine ⟨_, rightIndex_eq_ok.mpr ⟨rights, hrights, rfl⟩, rows, ?_, ?_⟩
    · rw [joinRow_eq, mapM_bind_eq_ok]
      exact ⟨lefts, hlefts, hrows⟩
    · rw [skipped_length, hnonempty]
      exact bind_eq_ok.mp hout

/-- The step returns what the join over pairs returns, and only then. -/
theorem join_items_eq_nested_loop (env : RunEnv) (stepId : String) (spec : JoinItemsSpec)
    (outputs : Outputs) (output : Object) :
    joinItems env stepId spec outputs = .ok output ↔
      nestedLoopJoin env stepId spec outputs = .ok output := by
  unfold joinItems nestedLoopJoin
  simp only [bind_eq_ok]
  refine exists_congr fun leftItems => and_congr_right fun _ => exists_congr fun rightItems =>
    and_congr_right fun _ => ?_
  constructor
  case mp =>
    rintro ⟨right, hright, left, hleft, hout⟩
    obtain ⟨rights, hrights, rfl⟩ := foldlM_addRight.mp hright
    obtain ⟨lefts, rows, hlefts, hrows, rfl⟩ := foldlM_addLeft.mp hleft
    refine ⟨lefts, hlefts, rights, hrights, rows.flatten, ?_, ?_⟩
    · rw [matchingPairs_eq, mapM_flatMap_eq_ok]
      simp only [List.mapM_map]
      exact ⟨rows, hrows, rfl⟩
    · rw [← matched_length hrows, mapM_ok_length hlefts, mapM_ok_length hrights]
      exact hout
  case mpr =>
    rintro ⟨lefts, hlefts, rights, hrights, items, hitems, hout⟩
    rw [matchingPairs_eq, mapM_flatMap_eq_ok] at hitems
    obtain ⟨rows, hrows, rfl⟩ := hitems
    simp only [List.mapM_map] at hrows
    refine ⟨_, foldlM_addRight.mpr ⟨rights, hrights, rfl⟩, _,
      foldlM_addLeft.mpr ⟨lefts, rows, hlefts, hrows, rfl⟩, ?_⟩
    rw [← matched_length hrows, mapM_ok_length hlefts, mapM_ok_length hrights] at hout
    exact hout

end Cruxible.HashJoins
