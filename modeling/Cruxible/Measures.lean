import Cruxible.Aggregates
import Mathlib.Data.Set.List

/-!
# Measures in another order

What a measure makes of the rows of a group when they stand in another order: the
counts are the same, integers add up to the same sum, and a minimum or maximum is
the same just if one of its values is best whatever the order.
-/
namespace Cruxible.Aggregates
open JsonValue PythonDict PropertyValidation Fallible ReadMetadata Groupings WorkflowRuns
open OrderValues OnlineExtrema HashJoins
open QueryOrdering (PredicateValueType)

variable {c : Conversions} {stepId name : String} {env : RunEnv} {outputs : Outputs}

variable (c stepId name env outputs) in
/-- The values that a minimum or maximum is taken over. -/
def candidates (template : Value) (valueType : Option PredicateValueType) (rows : List Object) :
    Except CoreError (List (Value × OrderValue)) :=
  (rows.mapM (candidateValue c stepId name env outputs template valueType)).map
    (List.filterMap id)

variable (stepId name) in
/-- The first of the values that none is ahead of, or null. -/
def extremum (comparison : Comparison OrderValue) : List (Value × OrderValue) →
    Except CoreError Value
  | [] => .ok .null
  | p :: ps => (select comparison (fun p => some p.2) (incomparable stepId name) p ps).map Prod.fst

theorem foldlM_minMaxTurn (comparison : Comparison OrderValue) (p : Value × OrderValue)
    (ps : List (Value × OrderValue)) :
    ps.foldlM (fun selected q => minMaxTurn stepId name comparison.lt selected (some q)) (some p) =
      (select comparison (fun p => some p.2) (incomparable stepId name) p ps).map some := by
  induction ps generalizing p with
  | nil => rfl
  | cons q ps ih =>
    unfold select
    rw [List.foldlM_cons, List.foldlM_cons]
    simp only [minMaxTurn, prefer]
    cases comparison.lt q.2 p.2 with
    | none => rfl
    | some ahead =>
      cases ahead with
      | true => exact ih q
      | false => exact ih p

variable {rows : List Object} {template v w : Value} {m : Measure}
  {comparison : Comparison OrderValue} {ps : List (Value × OrderValue)}

theorem aggregateMinMax_eq {valueType : Option PredicateValueType}
    (h : candidates c stepId name env outputs template valueType rows = .ok ps) :
    aggregateMinMax c stepId name env outputs comparison.lt template valueType rows =
      extremum stepId name comparison ps := by
  obtain ⟨os, hos, rfl⟩ := map_eq_ok.mp h
  unfold aggregateMinMax
  rw [foldlM_of_mapM hos, foldlM_filterMap (fun s => rfl) (fun s p => rfl)]
  cases os.filterMap id with
  | nil => rfl
  | cons p ps =>
    rw [List.foldlM_cons]
    change (ps.foldlM _ (some p) >>= _) = _
    rw [foldlM_minMaxTurn]
    dsimp only [extremum]
    cases select comparison (fun p => some p.2) (incomparable stepId name) p ps <;> rfl

theorem candidates_of_aggregateMinMax {lt : OrderValue → OrderValue → Option Bool}
    {valueType : Option PredicateValueType}
    (h : aggregateMinMax c stepId name env outputs lt template valueType rows = .ok v) :
    ∃ ps, candidates c stepId name env outputs template valueType rows = .ok ps := by
  unfold aggregateMinMax at h
  obtain ⟨selected, hloop, -⟩ := bind_eq_ok.mp h
  obtain ⟨os, hos, -⟩ := foldlM_bind_eq_ok.mp hloop
  exact ⟨_, map_eq_ok.mpr ⟨os, hos, rfl⟩⟩

/-- Values that a canonical text does not tell apart. -/
def SameValue (v w : Value) : Prop := v.canonical = w.canonical

def SameCandidate (p q : Value × OrderValue) : Prop := SameValue p.1 q.1

theorem sameCandidate_equivalence : Equivalence SameCandidate where
  refl _ := rfl
  symm h := Eq.symm h
  trans h h' := Eq.trans h h'

/-- Nothing, or values among which one is best whatever the order. -/
def Definite (comparison : Comparison OrderValue) (ps : List (Value × OrderValue)) : Prop :=
  ps = [] ∨ Settled comparison Prod.snd SameCandidate ps

theorem extremum_same_iff (h : extremum stepId name comparison ps = .ok v) :
    (∀ qs, qs.Perm ps → ∃ w, extremum stepId name comparison qs = .ok w ∧ SameValue v w) ↔
      Definite comparison ps := by
  cases ps with
  | nil =>
    cases h
    refine iff_of_true (fun qs hqs => ?_) (.inl rfl)
    rw [hqs.eq_nil]
    exact ⟨.null, rfl, rfl⟩
  | cons p ps =>
    obtain ⟨t, ht, rfl⟩ := map_eq_ok.mp h
    have hiff := select_same_iff sameCandidate_equivalence ht
    rw [Definite, or_iff_right (List.cons_ne_nil p ps), ← hiff]
    constructor
    · intro hall q qs hqs
      obtain ⟨w, hw, hsame⟩ := hall (q :: qs) hqs
      obtain ⟨s, hs, rfl⟩ := map_eq_ok.mp hw
      exact ⟨s, hs, Eq.symm hsame⟩
    · intro hall qs hqs
      cases qs with
      | nil => exact absurd hqs.symm.eq_nil (List.cons_ne_nil p ps)
      | cons q qs =>
        obtain ⟨s, hs, hsame⟩ := hall q qs hqs
        exact ⟨s.1, map_eq_ok.mpr ⟨s, hs, rfl⟩, Eq.symm hsame⟩

def IsNumber (v : Value) : Prop := (∃ n, v = .int n) ∨ ∃ f, v = .float f

theorem ensureFinite_isNumber {operation : String}
    (h : ensureFiniteAggregateNumber c stepId name operation v = .ok w) : IsNumber w := by
  unfold ensureFiniteAggregateNumber at h
  split at h
  case h_1 n =>
    simp only [bind_eq_ok, pure_eq_ok] at h
    obtain ⟨_, _, _, _, rfl⟩ := h
    exact .inl ⟨n, rfl⟩
  case h_2 f =>
    simp only [bind_eq_ok, pure_eq_ok] at h
    obtain ⟨_, _, _, _, rfl⟩ := h
    exact .inr ⟨f, rfl⟩
  case h_3 => cases h

theorem coerceSum_isNumber {valueType : Option PredicateValueType}
    (h : coerceAggregateSumValue c stepId name valueType v = .ok w) : IsNumber w := by
  unfold coerceAggregateSumValue at h
  cases valueType with
  | none => exact ensureFinite_isNumber h
  | some t =>
    simp only [bind_eq_ok] at h
    obtain ⟨_, _, _, _, h⟩ := h
    exact ensureFinite_isNumber h

theorem summand_isNumber {valueType : Option PredicateValueType} {row : Object} {n : Value}
    (h : summand c stepId name env outputs template valueType row = .ok (some n)) : IsNumber n := by
  unfold summand at h
  obtain ⟨v, -, h⟩ := bind_eq_ok.mp h
  split_ifs at h with hnull
  · cases h
  · rw [bind_eq_ok] at h
    obtain ⟨m, hm, h⟩ := h
    cases h
    exact coerceSum_isNumber hm

theorem toFloat_of_isNumber (h : IsNumber v) :
    (∃ f, toFloat c v = .ok f) ∨ toFloat c v = .error tooLarge := by
  rcases h with ⟨n, rfl⟩ | ⟨f, rfl⟩
  · cases h : c.floatOfInt n with
    | none =>
      refine .inr ?_
      simp only [toFloat, h]
    | some f =>
      refine .inl ⟨f, ?_⟩
      simp only [toFloat, h]
  · exact .inl ⟨f, rfl⟩

theorem addNumbers_float {a b : Value} (ha : IsNumber a) (hb : IsNumber b)
    (hfloat : (∃ f, a = .float f) ∨ ∃ f, b = .float f) :
    (∃ f, addNumbers c a b = .ok (.float f)) ∨ addNumbers c a b = .error tooLarge := by
  have hsum : addNumbers c a b = (toFloat c a >>= fun x => toFloat c b >>= fun y =>
      pure (.float (c.addFloats x y))) := by
    unfold addNumbers
    split
    · rcases hfloat with ⟨f, hf⟩ | ⟨f, hf⟩ <;> cases hf
    · rfl
  rw [hsum]
  rcases toFloat_of_isNumber (c := c) ha with ⟨x, hx⟩ | hx
  · rcases toFloat_of_isNumber (c := c) hb with ⟨y, hy⟩ | hy
    · rw [hx, hy]
      exact .inl ⟨_, rfl⟩
    · rw [hx, hy]
      exact .inr rfl
  · rw [hx]
    exact .inr rfl

theorem foldlM_addNumbers_int (ns : List Int) (total : Int) :
    (ns.map Value.int).foldlM (addNumbers c) (.int total) = .ok (.int (total + ns.sum)) := by
  induction ns generalizing total with
  | nil => simp [pure, Except.pure]
  | cons n ns ih =>
    rw [List.map_cons, List.foldlM_cons]
    change (ns.map Value.int).foldlM (addNumbers c) (.int (total + n)) = _
    rw [ih, List.sum_cons, add_assoc]

variable {ns : List Value}

theorem foldlM_addNumbers_float {total : Value} (htotal : IsNumber total)
    (hns : ∀ n ∈ ns, IsNumber n) (hfloat : (∃ f, total = .float f) ∨ ∃ n ∈ ns, ∃ f, n = .float f) :
    (∃ f, ns.foldlM (addNumbers c) total = .ok (.float f)) ∨
      ns.foldlM (addNumbers c) total = .error tooLarge := by
  induction ns generalizing total with
  | nil =>
    rcases hfloat with ⟨f, rfl⟩ | ⟨n, hn, -⟩
    · exact .inl ⟨f, rfl⟩
    · cases hn
  | cons n ns ih =>
    have hn : IsNumber n := hns n List.mem_cons_self
    have hrest : ∀ m ∈ ns, IsNumber m := fun m hm => hns m (List.mem_cons_of_mem _ hm)
    rw [List.foldlM_cons]
    by_cases hnow : (∃ f, total = .float f) ∨ ∃ f, n = .float f
    · rcases addNumbers_float (c := c) htotal hn hnow with ⟨f, hf⟩ | hlarge
      · rw [hf]
        exact ih (.inr ⟨f, rfl⟩) hrest (.inl ⟨f, rfl⟩)
      · rw [hlarge]
        exact .inr rfl
    · obtain ⟨htotalint, hnint⟩ := not_or.mp hnow
      obtain ⟨i, rfl⟩ := htotal.resolve_right htotalint
      obtain ⟨j, rfl⟩ := hn.resolve_right hnint
      refine ih (.inl ⟨i + j, rfl⟩) hrest (.inr ?_)
      obtain ⟨m, hm, f, rfl⟩ := hfloat.resolve_left htotalint
      rcases List.mem_cons.mp hm with heq | hm
      · cases heq
      · exact ⟨_, hm, f, rfl⟩

theorem addNumbers_perm {ns' : List Value} (hns : ∀ n ∈ ns, IsNumber n) (hperm : ns'.Perm ns)
    (h : ns.foldlM (addNumbers c) (.int 0) = .ok v) :
    ns'.foldlM (addNumbers c) (.int 0) = .ok v ∨
      ∃ f, v = .float f ∧ ((∃ g, ns'.foldlM (addNumbers c) (.int 0) = .ok (.float g)) ∨
        ns'.foldlM (addNumbers c) (.int 0) = .error tooLarge) := by
  by_cases hfloat : ∃ n ∈ ns, ∃ f, n = .float f
  · right
    have hfloat' : ∃ n ∈ ns', ∃ f, n = .float f := by
      obtain ⟨n, hn, hf⟩ := hfloat
      exact ⟨n, hperm.mem_iff.mpr hn, hf⟩
    have hns' : ∀ n ∈ ns', IsNumber n := fun n hn => hns n (hperm.mem_iff.mp hn)
    rcases foldlM_addNumbers_float (c := c) (.inl ⟨0, rfl⟩) hns (.inr hfloat) with ⟨f, hf⟩ | hlarge
    · rw [hf] at h
      cases h
      exact ⟨f, rfl, foldlM_addNumbers_float (.inl ⟨0, rfl⟩) hns' (.inr hfloat')⟩
    · rw [hlarge] at h
      cases h
  · left
    have hints : ∀ n ∈ ns, n ∈ Set.range Value.int := by
      intro n hn
      obtain ⟨i, rfl⟩ := (hns n hn).resolve_right fun hf => hfloat ⟨n, hn, hf⟩
      exact ⟨i, rfl⟩
    have hlists : ∀ ms : List Value, (∀ m ∈ ms, m ∈ Set.range Value.int) →
        ∃ is : List Int, is.map Value.int = ms := by
      intro ms hms
      have hrange : ms ∈ Set.range (List.map Value.int) := by
        rw [Set.range_list_map]
        exact hms
      exact hrange
    obtain ⟨is, rfl⟩ := hlists ns hints
    obtain ⟨is', rfl⟩ := hlists ns' fun n hn => hints n (hperm.mem_iff.mp hn)
    have hsum : is'.sum = is.sum := by
      refine List.Perm.sum_eq ((List.map_perm_map_iff ?_).mp hperm)
      exact fun i j hij => Value.int.inj hij
    rw [foldlM_addNumbers_int] at h ⊢
    rw [hsum]
    exact h

/-- What a minimum or maximum measure asks for. -/
structure Extremum where
  comparison : Comparison OrderValue
  template : Value
  valueType : Option PredicateValueType

def Measure.extremum? : Measure → Option Extremum
  | .min template valueType => some ⟨pythonComparison, template, valueType⟩
  | .max template valueType => some ⟨pythonComparison.dual, template, valueType⟩
  | _ => none

def Measure.isSum : Measure → Bool
  | .sum _ _ => true
  | _ => false

theorem evaluate_extremum {e : Extremum} (h : m.extremum? = some e) (rows : List Object) :
    evaluateAggregateMeasure c stepId name env outputs rows m =
      aggregateMinMax c stepId name env outputs e.comparison.lt e.template e.valueType rows := by
  cases m with
  | min template valueType =>
    cases h
    rfl
  | max template valueType =>
    cases h
    rfl
  | count | countWhere | countDistinct | sum => cases h

variable (c stepId name env outputs) in
/-- A minimum or maximum over the rows is definite, whatever it is over. -/
def DefiniteMeasure (m : Measure) (rows : List Object) : Prop :=
  ∀ e ∈ m.extremum?, ∀ ps,
    candidates c stepId name env outputs e.template e.valueType rows = .ok ps →
      Definite e.comparison ps

/-- Two values of one measure are the same, or two sums of floats. -/
def SameMeasure (m : Measure) (v w : Value) : Prop :=
  SameValue v w ∨ m.isSum = true ∧ ∃ f g, v = .float f ∧ w = .float g

theorem SameMeasure.of_eq (h : v = w) : SameMeasure m v w :=
  .inl (congrArg Value.canonical h)

theorem evaluate_sum {valueType : Option PredicateValueType} {os : List (Option Value)}
    (h : rows.mapM (summand c stepId name env outputs template valueType) = .ok os) :
    evaluateAggregateMeasure c stepId name env outputs rows (.sum template valueType) =
      (os.filterMap id).foldlM (addNumbers c) (.int 0) :=
  (foldlM_of_mapM h _).trans (foldlM_filterMap (fun _ => rfl) (fun _ _ => rfl) os _)

theorem evaluate_perm {rows' : List Object} (hperm : rows'.Perm rows)
    (h : evaluateAggregateMeasure c stepId name env outputs rows m = .ok v)
    (hdefinite : DefiniteMeasure c stepId name env outputs m rows) :
    (∃ w, evaluateAggregateMeasure c stepId name env outputs rows' m = .ok w ∧
        SameMeasure m v w) ∨
      evaluateAggregateMeasure c stepId name env outputs rows' m = .error tooLarge ∧
        m.isSum = true ∧ ∃ f, v = .float f := by
  have hextremum : ∀ e, m.extremum? = some e →
      ∃ w, evaluateAggregateMeasure c stepId name env outputs rows' m = .ok w ∧
        SameMeasure m v w := by
    intro e he
    rw [evaluate_extremum he] at h ⊢
    obtain ⟨ps, hps⟩ := candidates_of_aggregateMinMax h
    rw [aggregateMinMax_eq hps] at h
    obtain ⟨os, hos, rfl⟩ := map_eq_ok.mp hps
    obtain ⟨os', hos', hperm'⟩ := mapM_perm hperm hos
    have hps' : candidates c stepId name env outputs e.template e.valueType rows' =
        .ok (os'.filterMap id) := map_eq_ok.mpr ⟨os', hos', rfl⟩
    obtain ⟨w, hw, hsame⟩ :=
      (extremum_same_iff h).mpr (hdefinite e he _ hps) _ (hperm'.filterMap id)
    exact ⟨w, (aggregateMinMax_eq hps').trans hw, .inl hsame⟩
  cases m with
  | count =>
    cases h
    refine .inl ⟨_, rfl, .of_eq ?_⟩
    rw [hperm.length_eq]
  | countWhere comparison =>
    simp only [evaluateAggregateMeasure, bind_eq_ok, pure_eq_ok] at h
    obtain ⟨found, hfound, rfl⟩ := h
    obtain ⟨found', hfound', hperm'⟩ := mapM_perm hperm hfound
    refine .inl ⟨WorkflowRuns.count (found'.filter id).length, ?_, .of_eq ?_⟩
    · simp only [evaluateAggregateMeasure, bind_eq_ok, pure_eq_ok]
      exact ⟨found', hfound', rfl⟩
    · rw [(hperm'.filter id).length_eq]
  | countDistinct template =>
    simp only [evaluateAggregateMeasure, bind_eq_ok, pure_eq_ok] at h
    obtain ⟨keys, hkeys, rfl⟩ := h
    obtain ⟨keys', hkeys', hperm'⟩ := mapM_perm hperm hkeys
    refine .inl ⟨WorkflowRuns.count (keys'.filterMap id).eraseDups.length, ?_, .of_eq ?_⟩
    · simp only [evaluateAggregateMeasure, bind_eq_ok, pure_eq_ok]
      exact ⟨keys', hkeys', rfl⟩
    · rw [(eraseDups_perm (hperm'.filterMap id)).length_eq]
  | sum template valueType =>
    obtain ⟨os, hos, -⟩ := foldlM_bind_eq_ok.mp h
    obtain ⟨os', hos', hperm'⟩ := mapM_perm hperm hos
    rw [evaluate_sum hos] at h
    rw [evaluate_sum hos']
    have hnumbers : ∀ n ∈ os.filterMap id, IsNumber n := by
      intro n hn
      obtain ⟨o, ho, hsome⟩ := List.mem_filterMap.mp hn
      obtain ⟨row, -, hrow⟩ := mapM_ok_mem hos o ho
      exact summand_isNumber (hrow.trans (congrArg Except.ok hsome))
    rcases addNumbers_perm hnumbers (hperm'.filterMap id) h with
      hw | ⟨f, rfl, ⟨g, hg⟩ | hlarge⟩
    · exact .inl ⟨v, hw, .of_eq rfl⟩
    · exact .inl ⟨.float g, hg, .inr ⟨rfl, f, g, rfl, rfl⟩⟩
    · exact .inr ⟨hlarge, rfl, f, rfl⟩
  | min | max => exact .inl (hextremum _ rfl)

theorem definiteMeasure_of_perm
    (h : evaluateAggregateMeasure c stepId name env outputs rows m = .ok v)
    (hall : ∀ rows', rows'.Perm rows →
      ∃ w, evaluateAggregateMeasure c stepId name env outputs rows' m = .ok w ∧
        SameMeasure m v w) : DefiniteMeasure c stepId name env outputs m rows := by
  intro e he ps hps
  rw [evaluate_extremum he, aggregateMinMax_eq hps] at h
  refine (extremum_same_iff h).mp fun qs hqs => ?_
  obtain ⟨os, hos, rfl⟩ := map_eq_ok.mp hps
  obtain ⟨os', hos', rfl⟩ := filterMap_reorder hqs
  obtain ⟨rows', hrows', hos'⟩ := mapM_reorder hos hos'
  have hps' : candidates c stepId name env outputs e.template e.valueType rows' =
      .ok (os'.filterMap id) := map_eq_ok.mpr ⟨os', hos', rfl⟩
  obtain ⟨w, hw, hsame⟩ := hall rows' hrows'
  rw [evaluate_extremum he, aggregateMinMax_eq hps'] at hw
  refine ⟨w, hw, hsame.resolve_right ?_⟩
  rintro ⟨hsum, -⟩
  cases m with
  | sum => cases he
  | count | countWhere | countDistinct | min | max => cases hsum

end Cruxible.Aggregates
