import Cruxible.Measures

/-!
# Summary rows

The aggregate step makes one row of every group, in the order of the texts of the
group fields. The rows split the items up, and in another order of the items they are
the same just if the minima and maxima are definite.
-/
namespace Cruxible.Aggregates
open JsonValue PythonDict PropertyValidation Fallible ReadMetadata Groupings WorkflowRuns
open OrderValues OnlineExtrema HashJoins
open QueryOrdering (PredicateValueType)

variable {c : Conversions} {stepId : String} {env : RunEnv} {outputs : Outputs}
  {spec : AggregateItemsSpec}

variable (spec) in
/-- The values of the group fields, in canonical form. -/
def groupColumns (fields : Object) : List Value :=
  spec.groupBy.keys.map fun n => ((Bindings.get? fields n).getD .null).canonical

theorem sortKey_eq (fields : Object) :
    sortKey c spec fields = (groupColumns spec fields).map c.dump := by
  rw [sortKey, groupColumns, List.map_map]
  rfl

variable (spec) in
/-- The fields of one group: a value for each name of the specification. -/
def IsGroupFields (fields : Object) : Prop := fields.map Prod.fst = spec.groupBy.keys

variable {fields row : Object} {e : Value × Object × Object} {k : Value}
  {es' : List (Value × Object × Object)} {m : String × Measure} {g : Group}

theorem IsGroupFields.nodup (h : IsGroupFields spec fields) :
    (fields.map Prod.fst).Nodup := h ▸ spec.groupBy.nodup

variable {fields' bs : Object} {items : List Value}

theorem groupColumns_eq_iff (h : IsGroupFields spec fields) (h' : IsGroupFields spec fields') :
    groupColumns spec fields = groupColumns spec fields' ↔
      (Value.object fields).canonical = (Value.object fields').canonical := by
  constructor
  case mp =>
    intro hcolumns
    rw [groupColumns, groupColumns, List.map_inj_left] at hcolumns
    simp only [Value.canonical, Value.object.injEq]
    refine Value.sortEntries_congr ?_ ?_ fun n => ?_
    · rw [Value.canonicalEntries_keys]
      exact h.nodup
    · rw [Value.canonicalEntries_keys]
      exact h'.nodup
    · rw [Value.canonicalEntries_get?, Value.canonicalEntries_get?]
      by_cases hn : n ∈ spec.groupBy.keys
      · obtain ⟨v, hv⟩ : ∃ v, Bindings.get? fields n = some v := by
          rw [← Option.isSome_iff_exists, Option.isSome_iff_ne_none, ne_eq, Bindings.get?_eq_none,
            not_not, h]
          exact hn
        obtain ⟨w, hw⟩ : ∃ w, Bindings.get? fields' n = some w := by
          rw [← Option.isSome_iff_exists, Option.isSome_iff_ne_none, ne_eq, Bindings.get?_eq_none,
            not_not, h']
          exact hn
        have hsame := hcolumns n hn
        rw [hv, hw] at hsame ⊢
        exact congrArg some hsame
      · have hnone : Bindings.get? fields n = none := by
          rw [Bindings.get?_eq_none, h]
          exact hn
        have hnone' : Bindings.get? fields' n = none := by
          rw [Bindings.get?_eq_none, h']
          exact hn
        rw [hnone, hnone']
  case mpr =>
    intro hsame
    refine List.map_congr_left fun n _ => ?_
    have hget := Value.canonical_object_get? h.nodup h'.nodup hsame n
    cases hv : Bindings.get? fields n <;> cases hw : Bindings.get? fields' n <;>
      simp [hv, hw] at hget ⊢
    exact hget

theorem resolveEntries_keys {sc : Scope} {es fs : List (String × Value)}
    (h : sc.resolveEntries es = .ok fs) : fs.map Prod.fst = es.map Prod.fst := by
  induction es generalizing fs with
  | nil =>
    cases h
    rfl
  | cons e es ih =>
    obtain ⟨k, v⟩ := e
    rw [Scope.resolveEntries] at h
    simp only [bind_eq_ok, pure_eq_ok] at h
    obtain ⟨w, -, ws, hws, rfl⟩ := h
    rw [List.map_cons, List.map_cons, ih hws]

variable (spec) in
/-- A row with its group fields and their canonical form. -/
def IsGrouped (e : Value × Object × Object) : Prop :=
  e.1 = (Value.object e.2.1).canonical ∧ IsGroupFields spec e.2.1

theorem groupedRow_isGrouped {item : Value} (h : groupedRow stepId env outputs spec item = .ok e) :
    IsGrouped spec e := by
  unfold groupedRow at h
  simp only [bind_eq_ok, pure_eq_ok] at h
  obtain ⟨row, -, fields, hfields, key, hkey, rfl⟩ := h
  unfold joinKey at hkey
  split_ifs at hkey
  cases hkey
  exact ⟨rfl, resolveEntries_keys hfields⟩

/-- The rows listed under a key. -/
def rowsOf (es : List (Value × Object × Object)) (k : Value) : List Object :=
  (members es k).map Prod.snd

/-- The group of a key. -/
def groupAt (es : List (Value × Object × Object)) (k : Value) : Group where
  fields := ((members es k).head?.map Prod.fst).getD []
  items := rowsOf es k

variable (spec) in
/-- The keys of the groups, the ones from the start included. -/
def groupKeys (es : List (Value × Object × Object)) : List Value :=
  if spec.groupBy.entries = [] then [.object []] else firstKeys es

theorem IsGrouped.of_empty (h : IsGrouped spec e) (hempty : spec.groupBy.entries = []) :
    e.1 = .object [] ∧ e.2.1 = [] := by
  obtain ⟨hkey, hfields⟩ := h
  have hnil : e.2.1 = [] := by
    rw [IsGroupFields, Dict.keys, hempty, List.map_nil, List.map_eq_nil_iff] at hfields
    exact hfields
  refine ⟨?_, hnil⟩
  rw [hkey, hnil]
  rfl

variable {es : List (Value × Object × Object)} {rows : List Object}
  (hes : ∀ e ∈ es, IsGrouped spec e)

include hes in
theorem mem_groupKeys (he : e ∈ es) : e.1 ∈ groupKeys spec es := by
  unfold groupKeys
  split_ifs with hempty
  · rw [((hes e he).of_empty hempty).1]
    exact List.mem_singleton_self _
  · exact mem_firstKeys.mpr (List.mem_map_of_mem he)

theorem nodup_groupKeys (es : List (Value × Object × Object)) : (groupKeys spec es).Nodup := by
  unfold groupKeys
  split_ifs
  · exact List.nodup_singleton _
  · exact nodup_firstKeys es
include hes in
theorem groupAt_fields (hk : k ∈ groupKeys spec es) :
    (Value.object (groupAt es k).fields).canonical = k ∧
      IsGroupFields spec (groupAt es k).fields := by
  cases hmembers : members es k with
  | nil =>
    have hempty : spec.groupBy.entries = [] := by
      by_contra hne
      rw [groupKeys, if_neg hne] at hk
      exact members_eq_nil.mp hmembers hk
    rw [groupKeys, if_pos hempty, List.mem_singleton] at hk
    subst hk
    simp only [groupAt, hmembers]
    refine ⟨rfl, ?_⟩
    rw [IsGroupFields, Dict.keys, hempty]
    rfl
  | cons m ms =>
    have hmem : m ∈ members es k := by
      rw [hmembers]
      exact List.mem_cons_self
    obtain ⟨e, he, rfl⟩ := List.mem_map.mp hmem
    obtain ⟨hein, hkey⟩ := List.mem_filter.mp he
    obtain ⟨hcanonical, hfields⟩ := hes e hein
    have hkey : e.1 = k := of_decide_eq_true hkey
    simp only [groupAt, hmembers]
    exact ⟨hcanonical.symm.trans hkey, hfields⟩

/-- One item further. -/
theorem addRow_groupAt (hes : ∀ e' ∈ es ++ [e], IsGrouped spec e') {d : Dict Value Group}
    (hkeys : d.keys = groupKeys spec es)
    (hgroups : ∀ k ∈ groupKeys spec es, d.get? k = some (groupAt es k)) :
    (addRow d e).keys = groupKeys spec (es ++ [e]) ∧
      ∀ k ∈ groupKeys spec (es ++ [e]), (addRow d e).get? k = some (groupAt (es ++ [e]) k) := by
  have hbefore : ∀ e' ∈ es, IsGrouped spec e' := fun e' he' => hes e' (List.mem_append_left _ he')
  have hlast : IsGrouped spec e := hes e (List.mem_append_right _ (List.mem_singleton_self e))
  obtain ⟨g, hg, hadd⟩ : ∃ g, g = groupAt (es ++ [e]) e.1 ∧ addRow d e = d.set e.1 g := by
    unfold addRow
    cases hget : d.get? e.1 with
    | none =>
      refine ⟨_, ?_, rfl⟩
      have hfresh : e.1 ∉ groupKeys spec es := by
        rw [← hkeys]
        exact Dict.get?_eq_none.mp hget
      have hempty : spec.groupBy.entries ≠ [] := by
        intro hempty
        rw [groupKeys, if_pos hempty, (hlast.of_empty hempty).1] at hfresh
        exact hfresh (List.mem_singleton_self _)
      rw [groupKeys, if_neg hempty] at hfresh
      simp [groupAt, rowsOf, members_concat, members_eq_nil.mpr hfresh]
    | some g =>
      refine ⟨_, ?_, rfl⟩
      have hold : e.1 ∈ groupKeys spec es := by
        rw [← hkeys, Dict.mem_keys]
        exact ⟨g, hget⟩
      obtain rfl := Option.some.inj (hget.symm.trans (hgroups e.1 hold))
      cases hmembers : members es e.1 with
      | nil =>
        have hempty : spec.groupBy.entries = [] := by
          by_contra hne
          rw [groupKeys, if_neg hne] at hold
          exact members_eq_nil.mp hmembers hold
        simp [groupAt, rowsOf, members_concat, hmembers, (hlast.of_empty hempty).2]
      | cons m ms => simp [groupAt, rowsOf, members_concat, hmembers]
  have hnewkeys : (d.set e.1 g).keys = groupKeys spec (es ++ [e]) := by
    rw [Dict.keys_set, hkeys, groupKeys, groupKeys]
    split_ifs with hempty hin hin
    · rfl
    · rw [(hlast.of_empty hempty).1] at hin
      exact absurd (List.mem_singleton_self _) hin
    · rw [firstKeys_concat, if_pos hin]
    · rw [firstKeys_concat, if_neg hin]
  rw [hadd]
  refine ⟨hnewkeys, fun k hk => ?_⟩
  rw [Dict.get?_set]
  by_cases hkey : e.1 = k
  · rw [if_pos hkey, hg, hkey]
  · rw [if_neg hkey]
    have hold : k ∈ groupKeys spec es := by
      rw [← hnewkeys, Dict.keys_set, hkeys] at hk
      split_ifs at hk with hin
      · exact hk
      · rcases List.mem_append.mp hk with hk | hk
        · exact hk
        · exact absurd (List.mem_singleton.mp hk).symm hkey
    rw [hgroups k hold]
    simp [groupAt, rowsOf, members_concat, hkey]

theorem foldl_addRow {es : List (Value × Object × Object)} (hes : ∀ e ∈ es, IsGrouped spec e) :
    (es.foldl addRow (initialGroups spec)).keys = groupKeys spec es ∧
      ∀ k ∈ groupKeys spec es,
        (es.foldl addRow (initialGroups spec)).get? k = some (groupAt es k) := by
  induction es using List.reverseRecOn with
  | nil =>
    unfold initialGroups groupKeys
    split_ifs with hempty
    · refine ⟨rfl, fun k hk => ?_⟩
      obtain rfl := List.mem_singleton.mp hk
      rfl
    · exact ⟨rfl, fun k hk => absurd hk List.not_mem_nil⟩
  | append_singleton es e ih =>
    obtain ⟨hkeys, hgroups⟩ := ih fun e' he' => hes e' (List.mem_append_left _ he')
    rw [List.foldl_append]
    exact addRow_groupAt hes hkeys hgroups
include hes in
theorem groups_eq_map :
    (es.foldl addRow (initialGroups spec)).entries.map Prod.snd =
      (groupKeys spec es).map (groupAt es) := by
  obtain ⟨hkeys, hgroups⟩ := foldl_addRow hes
  rw [← hkeys, Dict.keys, List.map_map]
  refine List.map_congr_left fun b hb => ?_
  have hget := Dict.get?_of_mem (q := b.1) (v := b.2) hb
  have hmem : b.1 ∈ groupKeys spec es := by
    rw [← hkeys, Dict.mem_keys]
    exact ⟨b.2, hget⟩
  exact Option.some.inj (hget.symm.trans (hgroups b.1 hmem))

variable (c spec) in
/-- The keys in the order of their texts. -/
def sortedKeys (es : List (Value × Object × Object)) : List Value :=
  (groupKeys spec es).mergeSort fun k l =>
    decide (sortKey c spec (groupAt es k).fields ≤ sortKey c spec (groupAt es l).fields)

theorem mem_sortedKeys :
    k ∈ sortedKeys c spec es ↔ k ∈ groupKeys spec es := List.mem_mergeSort

theorem aggregateRows_eq (h : items.mapM (groupedRow stepId env outputs spec) = .ok es) :
    aggregateRows c stepId env outputs spec items =
      (sortedKeys c spec es).mapM fun k => outputRow c stepId env outputs spec (groupAt es k) := by
  have hes : ∀ e ∈ es, IsGrouped spec e := by
    intro e he
    obtain ⟨item, -, hitem⟩ := mapM_ok_mem h e he
    exact groupedRow_isGrouped hitem
  have hloop : items.foldlM (fun groups item => do
      let e ← groupedRow stepId env outputs spec item
      pure (addRow groups e)) (initialGroups spec) =
        .ok (es.foldl addRow (initialGroups spec)) := by
    have hturn : ∀ groups item, (do
        let e ← groupedRow stepId env outputs spec item
        pure (addRow groups e)) =
          (groupedRow stepId env outputs spec item).map (addRow groups) := by
      intro groups item
      cases groupedRow stepId env outputs spec item <;> rfl
    rw [foldlM_eq_map hturn, h]
    rfl
  unfold aggregateRows
  rw [hloop]
  change List.mapM _ _ = _
  rw [groups_eq_map hes, sortedKeys, ← List.map_mergeSort, List.mapM_map]
  · rfl
  · exact fun k _ l _ => rfl

variable (c) in
/-- The texts of the values are as different as the values. -/
def TellsApart (vs : List Value) : Prop := ∀ v ∈ vs, ∀ w ∈ vs, c.dump v = c.dump w → v = w

variable (spec) in
/-- The values of all group fields. -/
def groupValues (es : List (Value × Object × Object)) : List Value :=
  es.flatMap fun e => groupColumns spec e.2.1

theorem mem_groupValues (hk : k ∈ groupKeys spec es) {v : Value}
    (hv : v ∈ groupColumns spec (groupAt es k).fields) : v ∈ groupValues spec es := by
  cases hmembers : members es k with
  | nil =>
    simp only [groupAt, hmembers] at hv
    obtain ⟨n, hn, -⟩ := List.mem_map.mp hv
    have hempty : spec.groupBy.entries = [] := by
      by_contra hne
      rw [groupKeys, if_neg hne] at hk
      exact members_eq_nil.mp hmembers hk
    rw [Dict.keys, hempty] at hn
    cases hn
  | cons m ms =>
    have hmem : m ∈ members es k := by
      rw [hmembers]
      exact List.mem_cons_self
    obtain ⟨e, he, rfl⟩ := List.mem_map.mp hmem
    simp only [groupAt, hmembers] at hv
    exact List.mem_flatMap.mpr ⟨e, (List.mem_filter.mp he).1, hv⟩

include hes in
theorem key_of_sortKey (htexts : TellsApart c (groupValues spec es)) {l : Value}
    (hk : k ∈ groupKeys spec es) (hl : l ∈ groupKeys spec es)
    (h : sortKey c spec (groupAt es k).fields = sortKey c spec (groupAt es l).fields) : k = l := by
  rw [sortKey_eq, sortKey_eq] at h
  have hcolumns := map_injective_on (fun v hv w hw =>
    htexts v (mem_groupValues hk hv) w (mem_groupValues hl hw)) h
  obtain ⟨hkfields, hkgroup⟩ := groupAt_fields hes hk
  obtain ⟨hlfields, hlgroup⟩ := groupAt_fields hes hl
  rw [← hkfields, ← hlfields]
  exact (groupColumns_eq_iff hkgroup hlgroup).mp hcolumns

theorem groupKeys_perm (h : es'.Perm es) : (groupKeys spec es').Perm (groupKeys spec es) := by
  unfold groupKeys
  split_ifs
  · exact .refl _
  · exact firstKeys_perm h

section
include hes

theorem groupAt_perm (h : es'.Perm es) (hk : k ∈ groupKeys spec es) :
    (Value.object (groupAt es' k).fields).canonical = k ∧
      IsGroupFields spec (groupAt es' k).fields :=
  groupAt_fields (fun e he => hes e (h.mem_iff.mp he)) ((groupKeys_perm h).mem_iff.mpr hk)

theorem sortKey_perm (h : es'.Perm es) (hk : k ∈ groupKeys spec es) :
    sortKey c spec (groupAt es' k).fields = sortKey c spec (groupAt es k).fields := by
  obtain ⟨hfields, hgroup⟩ := groupAt_fields hes hk
  obtain ⟨hfields', hgroup'⟩ := groupAt_perm hes h hk
  rw [sortKey_eq, sortKey_eq]
  exact congrArg _ ((groupColumns_eq_iff hgroup' hgroup).mpr (hfields'.trans hfields.symm))

theorem sortedKeys_perm (htexts : TellsApart c (groupValues spec es)) (h : es'.Perm es) :
    sortedKeys c spec es' = sortedKeys c spec es := by
  have hsorted : ∀ fs : List (Value × Object × Object), (sortedKeys c spec fs).Pairwise fun k l =>
      sortKey c spec (groupAt fs k).fields ≤ sortKey c spec (groupAt fs l).fields := by
    intro fs
    have hpairs : (sortedKeys c spec fs).Pairwise fun k l =>
        decide (sortKey c spec (groupAt fs k).fields ≤ sortKey c spec (groupAt fs l).fields) =
          true := by
      refine List.pairwise_mergeSort ?_ ?_ _
      · intro k l m hkl hlm
        rw [decide_eq_true_eq] at hkl hlm ⊢
        exact le_trans hkl hlm
      · intro k l
        rw [Bool.or_eq_true, decide_eq_true_eq, decide_eq_true_eq]
        exact le_total _ _
    exact hpairs.imp of_decide_eq_true
  have hperm : (sortedKeys c spec es').Perm (sortedKeys c spec es) :=
    (List.mergeSort_perm _ _).trans ((groupKeys_perm h).trans (List.mergeSort_perm _ _).symm)
  refine List.Perm.eq_of_pairwise ?_ (hsorted es') ?_ hperm
  · intro k l hk hl hkl hlk
    have hk := mem_sortedKeys.mp (hperm.mem_iff.mp hk)
    have hl := mem_sortedKeys.mp hl
    rw [sortKey_perm hes h hk, sortKey_perm hes h hl] at hkl hlk
    exact key_of_sortKey hes htexts hk hl (le_antisymm hkl hlk)
  · refine (hsorted es).imp_of_mem fun hk hl hkl => ?_
    rw [sortKey_perm hes h (mem_sortedKeys.mp hk), sortKey_perm hes h (mem_sortedKeys.mp hl)]
    exact hkl

end

theorem foldl_set_fresh (hnodup : (bs.map Prod.fst).Nodup)
    (hfresh : ∀ n ∈ bs.map Prod.fst, n ∉ row.map Prod.fst) :
    bs.foldl (fun row b => Bindings.set row b.1 b.2) row = row ++ bs := by
  induction bs generalizing row with
  | nil => exact (List.append_nil row).symm
  | cons b bs ih =>
    obtain ⟨hfirst, hrest⟩ := List.nodup_cons.mp hnodup
    rw [List.foldl_cons, Bindings.set_of_not_mem b.2 (hfresh b.1 List.mem_cons_self), ih hrest]
    · rw [List.append_assoc]
      rfl
    · intro n hn hmem
      rw [List.map_append, List.mem_append] at hmem
      rcases hmem with hmem | hmem
      · exact hfresh n (List.mem_cons_of_mem _ hn) hmem
      · exact hfirst (List.mem_singleton.mp hmem ▸ hn)

variable (c stepId env outputs) in
/-- The column of a measure. -/
def column (rows : List Object) (m : String × Measure) : Except CoreError (String × Value) :=
  (evaluateAggregateMeasure c stepId m.1 env outputs rows m.2).map fun v => (m.1, v)

theorem column_fst {b : String × Value} (h : column c stepId env outputs rows m = .ok b) :
    b.1 = m.1 := by
  obtain ⟨v, -, rfl⟩ := map_eq_ok.mp h
  rfl

theorem columns_keys {cols : Object}
    (h : spec.measures.entries.mapM (column c stepId env outputs rows) = .ok cols) :
    cols.map Prod.fst = spec.measures.keys := mapM_map_congr h fun _ _ _ hb => column_fst hb

theorem outputRow_eq (hg : IsGroupFields spec g.fields) :
    outputRow c stepId env outputs spec g =
      (spec.measures.entries.mapM (column c stepId env outputs g.items)).map (g.fields ++ ·) := by
  have hturn : ∀ (row : Object) (m : String × Measure), (do
      let v ← evaluateAggregateMeasure c stepId m.1 env outputs g.items m.2
      pure (Bindings.set row m.1 v)) =
        (column c stepId env outputs g.items m).map fun b => Bindings.set row b.1 b.2 := by
    intro row m
    unfold column
    cases evaluateAggregateMeasure c stepId m.1 env outputs g.items m.2 <;> rfl
  unfold outputRow
  rw [foldlM_eq_map hturn]
  cases hcols : spec.measures.entries.mapM (column c stepId env outputs g.items) with
  | error e => rfl
  | ok cols =>
    refine congrArg Except.ok (foldl_set_fresh ?_ ?_)
    · rw [columns_keys hcols]
      exact spec.measures.nodup
    · intro n hn hmem
      rw [columns_keys hcols] at hn
      rw [hg] at hmem
      exact spec.separate n hmem hn

theorem outputRow_eq_ok (hg : IsGroupFields spec g.fields) :
    outputRow c stepId env outputs spec g = .ok row ↔
      ∃ cols, spec.measures.entries.mapM (column c stepId env outputs g.items) = .ok cols ∧
        g.fields ++ cols = row := by
  rw [outputRow_eq hg, map_eq_ok]

theorem get?_append_left {as : Object} {n : String} (h : n ∈ as.map Prod.fst) :
    Bindings.get? (as ++ bs) n = Bindings.get? as n := by
  induction as with
  | nil => cases h
  | cons a as ih =>
    rw [List.cons_append, Bindings.get?, Bindings.get?]
    split_ifs with ha
    · rfl
    · refine ih ?_
      rcases List.mem_cons.mp h with rfl | h
      · exact absurd rfl ha
      · exact h

theorem groupColumns_outputRow (hg : IsGroupFields spec g.fields)
    (h : outputRow c stepId env outputs spec g = .ok row) :
    groupColumns spec row = groupColumns spec g.fields := by
  obtain ⟨cols, -, rfl⟩ := (outputRow_eq_ok hg).mp h
  refine List.map_congr_left fun n hn => ?_
  rw [get?_append_left]
  rw [hg]
  exact hn

theorem get?_outputRow (hg : IsGroupFields spec g.fields)
    (h : outputRow c stepId env outputs spec g = .ok row) (hm : m ∈ spec.measures.entries) :
    ∃ v, evaluateAggregateMeasure c stepId m.1 env outputs g.items m.2 = .ok v ∧
      Bindings.get? row m.1 = some v := by
  obtain ⟨cols, hcols, rfl⟩ := (outputRow_eq_ok hg).mp h
  obtain ⟨b, hb, hcolumn⟩ := mapM_ok_each hcols m hm
  obtain ⟨v, hv, rfl⟩ := map_eq_ok.mp hcolumn
  refine ⟨v, hv, Bindings.get?_of_mem ?_ (List.mem_append_right _ hb)⟩
  rw [List.map_append, columns_keys hcols, hg]
  refine List.nodup_append.mpr ⟨spec.groupBy.nodup, spec.measures.nodup, ?_⟩
  rintro n hn k hk rfl
  exact spec.separate n hn hk

variable (spec) in
/-- A column that adds up to a float. -/
def FloatSum (b : String × Value) : Prop :=
  (∃ template valueType, (b.1, Measure.sum template valueType) ∈ spec.measures.entries) ∧
    ∃ f, b.2 = .float f

variable (spec) in
def SameColumn (a b : String × Value) : Prop :=
  a.1 = b.1 ∧ (SameValue a.2 b.2 ∨ FloatSum spec a ∧ FloatSum spec b)

variable (spec) in
/-- Column by column two rows are the same, but for sums of floats. -/
def SameRow (row row' : Object) : Prop := List.Forall₂ (SameColumn spec) row row'

variable (spec) in
/-- The same rows, or a sum of floats that is too large in another order. -/
def Agrees (rows : List Object) (result : Except CoreError (List Object)) : Prop :=
  (∃ rows', result = .ok rows' ∧ List.Forall₂ (SameRow spec) rows rows') ∨
    result = .error tooLarge ∧ ∃ row ∈ rows, ∃ b ∈ row, FloatSum spec b

variable (spec) in
/-- Every sum is over integers. -/
def ExactSums (rows : List Object) : Prop := ∀ row ∈ rows, ∀ b ∈ row, ¬FloatSum spec b

theorem rowsOf_perm (h : es'.Perm es) (k : Value) :
    (rowsOf es' k).Perm (rowsOf es k) := (members_perm h k).map Prod.snd

theorem sameRow_fields (h : IsGroupFields spec fields) (h' : IsGroupFields spec fields')
    (hsame : (Value.object fields).canonical = (Value.object fields').canonical) :
    SameRow spec fields fields' := by
  have hlength : fields.length = fields'.length := by
    rw [← List.length_map Prod.fst, h, ← h', List.length_map]
  have hcanonical := Value.canonical_object_get? h.nodup h'.nodup hsame
  refine List.forall₂_iff_get.mpr ⟨hlength, fun i hi hi' => ?_⟩
  have hname : (fields.get ⟨i, hi⟩).1 = (fields'.get ⟨i, hi'⟩).1 := by
    have hnames : fields.map Prod.fst = fields'.map Prod.fst := h.trans h'.symm
    have hat : (fields.map Prod.fst)[i]? = (fields'.map Prod.fst)[i]? := by rw [hnames]
    simpa [List.getElem?_map, hi, hi'] using hat
  have hget := Bindings.get?_of_mem h.nodup (List.get_mem fields ⟨i, hi⟩)
  have hget' := Bindings.get?_of_mem h'.nodup (List.get_mem fields' ⟨i, hi'⟩)
  have hvalue := hcanonical (fields.get ⟨i, hi⟩).1
  rw [hget, hname, hget'] at hvalue
  exact ⟨hname, .inl (Option.some.inj hvalue)⟩

theorem floatSum_of_isSum (hm : m ∈ spec.measures.entries) (hsum : m.2.isSum = true) {v : Value}
    (hv : ∃ f, v = .float f) : FloatSum spec (m.1, v) := by
  obtain ⟨n, m⟩ := m
  cases m with
  | sum template valueType => exact ⟨⟨template, valueType, hm⟩, hv⟩
  | count | countWhere | countDistinct | min | max => cases hsum

include hes in
theorem outputRow_perm (h : es'.Perm es) (hk : k ∈ groupKeys spec es)
    (hdefinite : ∀ m ∈ spec.measures.entries,
      DefiniteMeasure c stepId m.1 env outputs m.2 (rowsOf es k))
    (hrow : outputRow c stepId env outputs spec (groupAt es k) = .ok row) :
    (∃ row', outputRow c stepId env outputs spec (groupAt es' k) = .ok row' ∧
        SameRow spec row row') ∨
      outputRow c stepId env outputs spec (groupAt es' k) = .error tooLarge ∧
        ∃ b ∈ row, FloatSum spec b := by
  obtain ⟨hfields, hgroup⟩ := groupAt_fields hes hk
  obtain ⟨hfields', hgroup'⟩ := groupAt_perm hes h hk
  obtain ⟨cols, hcols, rfl⟩ := (outputRow_eq_ok hgroup).mp hrow
  have hcolumns : ∀ m ∈ spec.measures.entries, ∀ b,
      column c stepId env outputs (rowsOf es k) m = .ok b →
      (∃ b', column c stepId env outputs (rowsOf es' k) m = .ok b' ∧ SameColumn spec b b') ∨
        column c stepId env outputs (rowsOf es' k) m = .error tooLarge ∧ FloatSum spec b := by
    intro m hm b hb
    obtain ⟨v, hv, rfl⟩ := map_eq_ok.mp hb
    rcases evaluate_perm (rowsOf_perm h k) hv (hdefinite m hm) with
      ⟨w, hw, hsame⟩ | ⟨hlarge, hsum, hfloat⟩
    · refine .inl ⟨(m.1, w), map_eq_ok.mpr ⟨w, hw, rfl⟩, rfl, ?_⟩
      rcases hsame with hsame | ⟨hsum, f, g, rfl, rfl⟩
      · exact .inl hsame
      · exact .inr ⟨floatSum_of_isSum hm hsum ⟨f, rfl⟩, floatSum_of_isSum hm hsum ⟨g, rfl⟩⟩
    · refine .inr ⟨?_, floatSum_of_isSum hm hsum hfloat⟩
      rw [column, hlarge]
      rfl
  rw [outputRow_eq hgroup']
  rcases mapM_follow hcols hcolumns with ⟨cols', hcols', hsame⟩ | ⟨hlarge, b, hb, hfloat⟩
  · refine .inl ⟨(groupAt es' k).fields ++ cols', map_eq_ok.mpr ⟨cols', hcols', rfl⟩, ?_⟩
    exact List.rel_append (sameRow_fields hgroup hgroup' (hfields.trans hfields'.symm)) hsame
  · refine .inr ⟨?_, b, List.mem_append_right _ hb, hfloat⟩
    change (spec.measures.entries.mapM (column c stepId env outputs (rowsOf es' k))).map _ = _
    rw [hlarge]
    rfl

variable (c stepId env outputs spec) in
/-- In every group every minimum and maximum is definite. -/
def DefiniteGroups (items : List Value) : Prop :=
  ∀ es, items.mapM (groupedRow stepId env outputs spec) = .ok es → ∀ k,
    ∀ m ∈ spec.measures.entries, DefiniteMeasure c stepId m.1 env outputs m.2 (rowsOf es k)

theorem grouped_of_rows (h : aggregateRows c stepId env outputs spec items = .ok rows) :
    ∃ es, items.mapM (groupedRow stepId env outputs spec) = .ok es := by
  rw [aggregateRows, bind_eq_ok] at h
  obtain ⟨groups, hloop, -⟩ := h
  obtain ⟨es, hes, -⟩ := foldlM_bind_eq_ok.mp hloop
  exact ⟨es, hes⟩

section Run

variable {items : List Value} {es : List (Value × Object × Object)} {rows : List Object}
  (hgrouped : items.mapM (groupedRow stepId env outputs spec) = .ok es)
  (hrows : aggregateRows c stepId env outputs spec items = .ok rows)

include hgrouped in
theorem isGrouped_of_mapM : ∀ e ∈ es, IsGrouped spec e := by
  intro e he
  obtain ⟨item, -, hitem⟩ := mapM_ok_mem hgrouped e he
  exact groupedRow_isGrouped hitem

include hgrouped hrows

theorem agrees_of_definite (htexts : TellsApart c (groupValues spec es))
    (hdefinite : DefiniteGroups c stepId env outputs spec items) {items' : List Value}
    (hperm : items'.Perm items) :
    Agrees spec rows (aggregateRows c stepId env outputs spec items') := by
  obtain ⟨es', hgrouped', hes'⟩ := mapM_perm hperm hgrouped
  have hes := isGrouped_of_mapM hgrouped
  rw [aggregateRows_eq hgrouped] at hrows
  rw [aggregateRows_eq hgrouped', sortedKeys_perm hes htexts hes']
  exact mapM_follow hrows fun k hk row hrow =>
    outputRow_perm hes hes' (mem_sortedKeys.mp hk) (hdefinite es hgrouped k) hrow

theorem definite_of_agrees (htexts : TellsApart c (groupValues spec es))
    (hexact : ExactSums spec rows)
    (hagrees : ∀ items', items'.Perm items →
      Agrees spec rows (aggregateRows c stepId env outputs spec items')) :
    DefiniteGroups c stepId env outputs spec items := by
  intro es₀ hes₀ k m hm
  obtain rfl : es = es₀ := Except.ok.inj (hgrouped.symm.trans hes₀)
  have hes := isGrouped_of_mapM hgrouped
  by_cases hk : k ∈ groupKeys spec es
  case neg =>
    intro e he ps hps
    have hnone : rowsOf es k = [] := by
      have hmembers : members es k = [] := by
        rw [List.eq_nil_iff_forall_not_mem]
        intro r hr
        obtain ⟨e, he, -⟩ := List.mem_map.mp hr
        obtain ⟨hein, hkey⟩ := List.mem_filter.mp he
        exact hk ((of_decide_eq_true hkey : e.1 = k) ▸ mem_groupKeys hes hein)
      rw [rowsOf, hmembers, List.map_nil]
    rw [hnone] at hps
    cases hps
    exact .inl rfl
  case pos =>
    obtain ⟨-, hgroup⟩ := groupAt_fields hes hk
    have hkeys := mem_sortedKeys (c := c).mpr hk
    rw [aggregateRows_eq hgrouped] at hrows
    obtain ⟨row, -, hrow⟩ := mapM_ok_each hrows k hkeys
    obtain ⟨cols, hcols, -⟩ := (outputRow_eq_ok hgroup).mp hrow
    obtain ⟨b, -, hb⟩ := mapM_ok_each hcols m hm
    obtain ⟨v, hv, -⟩ := map_eq_ok.mp hb
    refine definiteMeasure_of_perm hv fun rs hrs => ?_
    obtain ⟨ms, hms, rfl⟩ := map_reorder hrs
    obtain ⟨es', hes', hmembers⟩ := members_reorder hms
    obtain ⟨items', hitems', hgrouped'⟩ := mapM_reorder hgrouped hes'
    have hagree := hagrees items' hitems'
    rw [aggregateRows_eq hgrouped', sortedKeys_perm hes htexts hes'] at hagree
    obtain ⟨-, hgroup'⟩ := groupAt_perm hes hes' hk
    rcases hagree with ⟨rows', hrows', hall⟩ | ⟨-, row, hrow, b, hb, hfloat⟩
    · obtain ⟨y, hyrows, z, hy, hz, hyz⟩ :=
        mapM_pair hrows hrows' hall k hkeys
      obtain ⟨cols, hcols, rfl⟩ := (outputRow_eq_ok hgroup).mp hy
      obtain ⟨cols', hcols', rfl⟩ := (outputRow_eq_ok hgroup').mp hz
      have hlength : (groupAt es' k).fields.length = (groupAt es k).fields.length := by
        rw [← List.length_map Prod.fst, hgroup', ← hgroup, List.length_map]
      have hcolumns : List.Forall₂ (SameColumn spec) cols cols' := by
        have hdrop := List.forall₂_drop (groupAt es k).fields.length hyz
        rw [List.drop_left, ← hlength, List.drop_left] at hdrop
        exact hdrop
      obtain ⟨a, hacols, b, ha, hb, -, hab⟩ := mapM_pair hcols hcols' hcolumns m hm
      obtain ⟨v', hv', rfl⟩ := map_eq_ok.mp ha
      obtain ⟨w, hw, rfl⟩ := map_eq_ok.mp hb
      obtain rfl := Except.ok.inj (hv.symm.trans hv')
      have hitems : (groupAt es' k).items = ms.map Prod.snd := by
        rw [← hmembers]
        rfl
      rw [hitems] at hw
      refine ⟨w, hw, .inl (hab.resolve_right fun hfloat => ?_)⟩
      exact hexact _ hyrows _ (List.mem_append_right _ hacols) hfloat.1
    · exact absurd hfloat (hexact row hrow b hb)

theorem counts_add_up {name : String} (hcount : (name, Measure.count) ∈ spec.measures.entries) :
    ∃ ns : List Nat, rows.map (fun row => Bindings.get? row name) =
        ns.map (fun n => some (WorkflowRuns.count n)) ∧ ns.sum = items.length := by
  have hes := isGrouped_of_mapM hgrouped
  rw [aggregateRows_eq hgrouped] at hrows
  refine ⟨(sortedKeys c spec es).map fun k => (rowsOf es k).length, ?_, ?_⟩
  · rw [List.map_map]
    refine mapM_map_congr hrows fun k hk row hrow => ?_
    obtain ⟨-, hgroup⟩ := groupAt_fields hes (mem_sortedKeys.mp hk)
    obtain ⟨v, hv, hget⟩ := get?_outputRow hgroup hrow hcount
    cases hv
    exact hget
  · have hlength : es.length = items.length := (mapM_eq_ok_iff.mp hgrouped).length_eq.symm
    have hsorted : (sortedKeys c spec es).Perm (groupKeys spec es) := List.mergeSort_perm _ _
    rw [(hsorted.map _).sum_eq, ← hlength]
    unfold groupKeys rowsOf
    split_ifs with hempty
    · have hall : members es (.object []) = es.map Prod.snd := by
        rw [members, List.filter_eq_self.mpr]
        exact fun e he => decide_eq_true ((hes e he).of_empty hempty).1
      simp [hall]
    · simp only [List.length_map]
      exact sum_length_members es

theorem groups_differ : (rows.map (groupColumns spec)).Nodup := by
  have hes := isGrouped_of_mapM hgrouped
  rw [aggregateRows_eq hgrouped] at hrows
  have hcolumns : rows.map (groupColumns spec) =
      (sortedKeys c spec es).map fun k => groupColumns spec (groupAt es k).fields :=
    mapM_map_congr hrows fun k hk row hrow =>
      groupColumns_outputRow (groupAt_fields hes (mem_sortedKeys.mp hk)).2 hrow
  have hnodup : (sortedKeys c spec es).Nodup :=
    (List.mergeSort_perm _ _).nodup_iff.mpr (nodup_groupKeys es)
  rw [hcolumns]
  refine hnodup.map_on fun k hk l hl hsame => ?_
  obtain ⟨hkfields, hkgroup⟩ := groupAt_fields hes (mem_sortedKeys.mp hk)
  obtain ⟨hlfields, hlgroup⟩ := groupAt_fields hes (mem_sortedKeys.mp hl)
  rw [← hkfields, ← hlfields]
  exact (groupColumns_eq_iff hkgroup hlgroup).mp hsame

end Run

/-- The rows of the aggregate step have the groups apart, and their counts add up to the
number of items. Items in another order make the same rows when every minimum and maximum
is definite, and where the sums are exact only then. -/
theorem rows_of_every_order {items : List Value} {rows : List Object}
    (hrows : aggregateRows c stepId env outputs spec items = .ok rows)
    (htexts : ∀ es, items.mapM (groupedRow stepId env outputs spec) = .ok es →
      TellsApart c (groupValues spec es)) :
    (∀ name, (name, Measure.count) ∈ spec.measures.entries →
      ∃ ns : List Nat, rows.map (fun row => Bindings.get? row name) =
        ns.map (fun n => some (WorkflowRuns.count n)) ∧ ns.sum = items.length) ∧
    (rows.map (groupColumns spec)).Nodup ∧
    (DefiniteGroups c stepId env outputs spec items → ∀ items', items'.Perm items →
      Agrees spec rows (aggregateRows c stepId env outputs spec items')) ∧
    (ExactSums spec rows →
      ((∀ items', items'.Perm items →
          Agrees spec rows (aggregateRows c stepId env outputs spec items')) ↔
        DefiniteGroups c stepId env outputs spec items)) := by
  obtain ⟨es, hgrouped⟩ := grouped_of_rows hrows
  have hapart := htexts es hgrouped
  refine ⟨fun name => counts_add_up hgrouped hrows, groups_differ hgrouped hrows,
    fun hdefinite _ => agrees_of_definite hgrouped hrows hapart hdefinite, fun hexact => ?_⟩
  constructor
  · exact definite_of_agrees hgrouped hrows hapart hexact
  · exact fun hdefinite _ => agrees_of_definite hgrouped hrows hapart hdefinite

/-- An offer of a shop. -/
def priced (shop : String) (v : Value) : Value := .object [("shop", .str shop), ("price", v)]

def priceEnv : RunEnv where
  input := []
  runQuery := fun _ _ _ _ => .error (.queryExecution "no query")
  callProvider := fun _ _ _ => .ok []
  payload := fun _ _ _ => .error (.queryExecution "no artifact")
  cast := fun _ _ v _ => .ok v
  compare := fun _ _ _ => .ok true

/-- Conversions that serve where no value is of a declared type and the groups are of
short texts. -/
def plainConversions : Conversions where
  str := fun _ => ""
  repr := fun _ => ""
  intOfText := fun _ => none
  floatOfInt := fun n => some (.finite n)
  floatOfText := fun _ => none
  lowered := fun s => s
  dayOfText := fun _ => none
  instantOfText := fun _ => none
  addFloats := fun x _ => x
  dump := fun v =>
    match v with
    | .str s => "\"" ++ s ++ "\""
    | _ => ""

def cheapest : AggregateItemsSpec where
  items := .str "$steps.offers.items"
  groupBy := .ofList [("shop", .str "$item.shop")]
  measures := .ofList [("offers", .count), ("lowest", .min (.str "$item.price") none)]
  measured := by decide
  separate := by decide

def shopKey (shop : String) : Value := .object [("shop", .str shop)]

def pricedRows (offers : List (String × Value)) : List (Value × Object × Object) :=
  offers.map fun o =>
    (shopKey o.1, [("shop", .str o.1)], [("shop", .str o.1), ("price", o.2)])

theorem grouped_priced (offers : List (String × Value)) :
    (offers.map fun o => priced o.1 o.2).mapM (groupedRow "cheapest" priceEnv ∅ cheapest) =
      .ok (pricedRows offers) := by
  induction offers with
  | nil => rfl
  | cons o os ih =>
    rw [List.map_cons, mapM_cons_eq_ok]
    exact ⟨(shopKey o.1, [("shop", .str o.1)], [("shop", .str o.1), ("price", o.2)]),
      pricedRows os, rfl, ih, rfl⟩

theorem aggregateRows_priced {offers : List (String × Value)}
    (hsorted : (groupKeys cheapest (pricedRows offers)).Pairwise fun k l =>
      decide (sortKey plainConversions cheapest (groupAt (pricedRows offers) k).fields ≤
        sortKey plainConversions cheapest (groupAt (pricedRows offers) l).fields) = true) :
    aggregateRows plainConversions "cheapest" priceEnv ∅ cheapest
        (offers.map fun o => priced o.1 o.2) =
      (groupKeys cheapest (pricedRows offers)).mapM fun k =>
        outputRow plainConversions "cheapest" priceEnv ∅ cheapest
          (groupAt (pricedRows offers) k) := by
  have hkeys : sortedKeys plainConversions cheapest (pricedRows offers) =
      groupKeys cheapest (pricedRows offers) := List.mergeSort_of_pairwise hsorted
  rw [aggregateRows_eq (grouped_priced offers), hkeys]

theorem mem_cheapest (h : m ∈ cheapest.measures.entries) :
    m = ("offers", .count) ∨ m = ("lowest", .min (.str "$item.price") none) := by
  rcases List.mem_cons.mp h with h | h
  · exact .inl h
  · exact .inr (List.mem_singleton.mp h)

def threeOffers : List (String × Value) := [("x", .int 3), ("x", .int 5), ("y", .int 4)]

theorem definite_prices : DefiniteGroups plainConversions "cheapest" priceEnv ∅ cheapest
    (threeOffers.map fun o => priced o.1 o.2) := by
  intro es hes k m hm e he ps hps
  obtain rfl := Except.ok.inj ((grouped_priced threeOffers).symm.trans hes)
  rcases mem_cheapest hm with rfl | rfl
  · cases he
  · cases he
    by_cases hx : shopKey "x" = k
    · subst hx
      obtain rfl : [(Value.int 3, ordered (.int 3)), (.int 5, ordered (.int 5))] = ps :=
        Except.ok.inj hps
      have hlt : valueLt (ordered (.int 3)) (ordered (.int 5)) = some true := by decide
      right
      constructor
      case compares =>
        refine List.pairwise_pair.mpr fun hnone => ?_
        cases hlt.symm.trans hnone
      case least =>
        refine ⟨_, List.mem_cons_self, fun v hv => ?_⟩
        rcases List.mem_cons.mp hv with rfl | hv
        · exact .inl rfl
        · obtain rfl := List.mem_singleton.mp hv
          exact .inr ⟨_, List.mem_cons_self, rfl, hlt⟩
    · by_cases hy : shopKey "y" = k
      · subst hy
        obtain rfl : [(Value.int 4, ordered (.int 4))] = ps := Except.ok.inj hps
        right
        refine ⟨List.pairwise_singleton _ _, _, List.mem_cons_self, fun v hv => .inl ?_⟩
        rw [List.mem_singleton.mp hv]
        rfl
      · have hnone : rowsOf (pricedRows threeOffers) k = [] := by
          simp [rowsOf, members, pricedRows, threeOffers, hx, hy]
        rw [hnone] at hps
        cases hps
        exact .inl rfl

def offersOf (shop : String) (offers lowest : Value) : Object :=
  [("shop", .str shop), ("offers", offers), ("lowest", lowest)]

/-- Two shops, one with two prices. -/
theorem rows_of_two_prices :
    (∃ ns : List Nat, [some (Value.int 2), some (Value.int 1)] =
      ns.map (fun n => some (WorkflowRuns.count n)) ∧ ns.sum = 3) ∧
    ([offersOf "x" (.int 2) (.int 3), offersOf "y" (.int 1) (.int 4)].map
      (groupColumns cheapest)).Nodup ∧
    Agrees cheapest [offersOf "x" (.int 2) (.int 3), offersOf "y" (.int 1) (.int 4)]
      (aggregateRows plainConversions "cheapest" priceEnv ∅ cheapest
        [priced "y" (.int 4), priced "x" (.int 5), priced "x" (.int 3)]) := by
  have hrun : aggregateRows plainConversions "cheapest" priceEnv ∅ cheapest
      (threeOffers.map fun o => priced o.1 o.2) =
        .ok [offersOf "x" (.int 2) (.int 3), offersOf "y" (.int 1) (.int 4)] :=
    aggregateRows_priced (List.pairwise_pair.mpr (by decide))
  have htexts : ∀ es, (threeOffers.map fun o => priced o.1 o.2).mapM
      (groupedRow "cheapest" priceEnv ∅ cheapest) = .ok es →
      TellsApart plainConversions (groupValues cheapest es) := by
    intro es hes
    obtain rfl := Except.ok.inj ((grouped_priced threeOffers).symm.trans hes)
    unfold TellsApart
    decide
  obtain ⟨hcounts, hapart, hagrees, -⟩ := rows_of_every_order hrun htexts
  exact ⟨hcounts "offers" List.mem_cons_self, hapart, hagrees definite_prices _
    (List.reverse_perm [priced "x" (.int 3), priced "x" (.int 5), priced "y" (.int 4)])⟩

/-- The prices 1 and 1.0 are equal, and the one that comes first is shown. -/
theorem first_of_equal_prices :
    aggregateRows plainConversions "cheapest" priceEnv ∅ cheapest
        [priced "x" (.int 1), priced "x" (.float (.finite 1))] =
      .ok [offersOf "x" (.int 2) (.int 1)] ∧
    [priced "x" (.float (.finite 1)), priced "x" (.int 1)].Perm
      [priced "x" (.int 1), priced "x" (.float (.finite 1))] ∧
    ¬Agrees cheapest [offersOf "x" (.int 2) (.int 1)]
      (aggregateRows plainConversions "cheapest" priceEnv ∅ cheapest
        [priced "x" (.float (.finite 1)), priced "x" (.int 1)]) := by
  have hsorted (v w : Value) :
      (groupKeys cheapest (pricedRows [("x", v), ("x", w)])).Pairwise fun k l =>
        decide (sortKey plainConversions cheapest
            (groupAt (pricedRows [("x", v), ("x", w)]) k).fields ≤
          sortKey plainConversions cheapest
            (groupAt (pricedRows [("x", v), ("x", w)]) l).fields) = true :=
    List.pairwise_singleton _ _
  have hrun : aggregateRows plainConversions "cheapest" priceEnv ∅ cheapest
      [priced "x" (.float (.finite 1)), priced "x" (.int 1)] =
        .ok [offersOf "x" (.int 2) (.float (.finite 1))] :=
    aggregateRows_priced (hsorted (.float (.finite 1)) (.int 1))
  refine ⟨aggregateRows_priced (hsorted (.int 1) (.float (.finite 1))), .swap _ _ _, ?_⟩
  rw [hrun]
  rintro (⟨rows, hrows, hall⟩ | ⟨herror, -⟩)
  · cases hrows
    obtain ⟨hrow, -⟩ := List.forall₂_cons.mp hall
    obtain ⟨-, hcolumns⟩ := List.forall₂_cons.mp hrow
    obtain ⟨-, hcolumns⟩ := List.forall₂_cons.mp hcolumns
    obtain ⟨⟨-, hsame | ⟨⟨-, f, hf⟩, -⟩⟩, -⟩ := List.forall₂_cons.mp hcolumns
    · cases hsame
    · cases hf
  · cases herror

end Cruxible.Aggregates
