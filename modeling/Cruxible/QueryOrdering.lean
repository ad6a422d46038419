import Cruxible.ComparisonSorts
import Cruxible.OrderValues
import Cruxible.QueryEngine
import Mathlib.Data.Prod.Lex

/-!
# The order of query rows

`sort_query_row_contexts` and `_sort_include_items`: rows are compared by the keys of
`order_by`, missing values last, and then by their identities. The order of the result
depends on the rows alone unless three of them go round under one of the keys.
-/
namespace Cruxible.QueryOrdering
open JsonValue PythonDict PropertyValidation Cruxible.Graph Neighbors Fallible OrderValues
  ComparisonSorts
open QueryEngine hiding sortQueryRowContexts

inductive SortDirection where
  | asc
  | desc
  deriving DecidableEq

inductive PredicateValueType where
  | string
  | int
  | integer
  | float
  | number
  | bool
  | date
  | datetime
  deriving DecidableEq

def PredicateValueType.name : PredicateValueType → String
  | .string => "string"
  | .int => "int"
  | .integer => "integer"
  | .float => "float"
  | .number => "number"
  | .bool => "bool"
  | .date => "date"
  | .datetime => "datetime"

structure QueryOrderSpec where
  /-- `by`. -/
  ref : String
  direction : SortDirection := .asc
  valueType : Option PredicateValueType := none
  enumRef : Option String := none
  exclusive : valueType = none ∨ enumRef = none := by decide

structure EnumSchema where
  values : List String
  lowToHigh : Bool := false
  distinct : values.Nodup := by decide

structure OrderEnv where
  /-- `str`. -/
  text : OrderValue → String
  /-- `repr`. -/
  repr : OrderValue → String
  /-- `coerce_predicate_value`, or nothing where it raises. -/
  coerce : PredicateValueType → OrderValue → Option OrderValue
  /-- The enums of the configuration, where there is one. -/
  enums : Option (Dict String EnumSchema) := none

/-- `values.index(value)`, or nothing where the value is not among them. -/
def enumIndex (values : List String) : OrderValue → Option Nat
  | .json (.str s) _ => values.idxOf? s
  | _ => none

/-- `coerce_query_order_value` of a value that is not `None`. -/
def coerceQueryOrderValue (env : OrderEnv) (order : QueryOrderSpec) (label : String)
    (value : OrderValue) : Except CoreError OrderValue :=
  match order.enumRef, order.valueType with
  | some enumRef, _ =>
      match env.enums with
      | none => .error (.queryExecution
          s!"Cannot use enum_ref '{enumRef}' for '{label}' without config")
      | some enums =>
          match enums.get? enumRef with
          | some ⟨values, true, _⟩ =>
              match enumIndex values value with
              | some i => .ok (.json (.int i) rfl)
              | none => .error (.queryExecution
                  s!"Invalid ordered enum value for '{label}': {env.repr value} is not in enum_ref '{enumRef}'")
          | _ => .error (.queryExecution
              s!"Order reference '{label}' uses unordered or unknown enum_ref '{enumRef}'")
  | none, none => .ok value
  | none, some valueType =>
      match env.coerce valueType value with
      | some coerced => .ok coerced
      | none => .error (.queryExecution
          s!"Invalid {valueType.name} order_by value for '{label}': {env.repr value}")

/-- What a reference resolves to on a row; `None` where it is missing. -/
abbrev Resolve (ρ : Type) := String → ρ → Except CoreError (Option OrderValue)

/-- `_resolve_order_value`. -/
def resolveOrderValue {ρ : Type} (env : OrderEnv) (resolve : Resolve ρ) (order : QueryOrderSpec)
    (row : ρ) : Except CoreError (Option OrderValue) := do
  match ← resolve order.ref row with
  | none => pure none
  | some value => some <$> coerceQueryOrderValue env order order.ref value

def SortDirection.orient : SortDirection → Ordering → Ordering
  | .asc, o => o
  | .desc, o => o.swap

/-- Two rows under one key: `None` is last in both directions. -/
def compareKey (text : OrderValue → String) (direction : SortDirection) :
    Option OrderValue → Option OrderValue → Ordering
  | none, none => .eq
  | none, some _ => .gt
  | some _, none => .lt
  | some left, some right => direction.orient (compareOrderValues text left right)

/-- `<` on identities. -/
def identityLt (left right : List Part) : Bool := !lexLe right left

section
variable {ρ : Type}

/-- `compare`: the keys in turn, then the identities. -/
def compareRows (env : OrderEnv) (resolve : Resolve ρ) (identity : ρ → List Part)
    (left right : ρ) : List QueryOrderSpec → Except CoreError Ordering
  | [] => .ok (compareSortKeys identityLt (identity left) (identity right))
  | order :: orderBy => do
      let leftValue ← resolveOrderValue env resolve order left
      let rightValue ← resolveOrderValue env resolve order right
      match compareKey env.text order.direction leftValue rightValue with
      | .eq => compareRows env resolve identity left right orderBy
      | o => pure o

/-- The `<` that `cmp_to_key` makes of it. -/
def rowLt (env : OrderEnv) (resolve : Resolve ρ) (identity : ρ → List Part)
    (orderBy : List QueryOrderSpec) (left right : ρ) : Except CoreError Bool :=
  (compareRows env resolve identity left right orderBy).map (· == .lt)

def sortRows (s : Sorter) (env : OrderEnv) (resolve : Resolve ρ) (identity : ρ → List Part)
    (orderBy : List QueryOrderSpec) (rows : List ρ) : Except CoreError (List ρ) :=
  if orderBy.isEmpty then .ok (sortedBy identity rows)
  else s.run (rowLt env resolve identity orderBy) rows

end

/-- `sort_query_row_contexts`. -/
def sortQueryRowContexts (s : Sorter) (env : OrderEnv) (resolve : Resolve QueryRowContext)
    (orderBy : List QueryOrderSpec) (rows : List QueryRowContext) :
    Except CoreError (List QueryRowContext) :=
  sortRows s env resolve stableRowIdentity orderBy rows

structure QueryIncludeItem where
  edge : QueryPathSegment
  source : EntityInstance
  target : EntityInstance

/-- `_include_item_identity`. -/
def includeItemIdentity (item : QueryIncludeItem) : List Part :=
  segmentIdentity item.edge ++ [.text item.source.entityType, .text item.source.entityId,
    .text item.target.entityType, .text item.target.entityId]

/-- `_sort_include_items`. -/
def sortIncludeItems (s : Sorter) (env : OrderEnv) (resolve : Resolve QueryIncludeItem)
    (orderBy : List QueryOrderSpec) (items : List QueryIncludeItem) :
    Except CoreError (List QueryIncludeItem) :=
  sortRows s env resolve includeItemIdentity orderBy items

/-- A position as its kind, its text and its number. -/
def partRank : Part → ℕ ×ₗ String ×ₗ ℕ
  | .stop => toLex (0, toLex ("", 0))
  | .text s => toLex (1, toLex (s, 0))
  | .number n => toLex (2, toLex ("", n))

theorem partRank_injective : Function.Injective partRank := by
  intro a b h
  cases a <;> cases b <;> simp_all [partRank]

theorem cons_le_cons_iff {L : Type} [LinearOrder L] (a b : L) (xs ys : List L) :
    a :: xs ≤ b :: ys ↔ a < b ∨ a = b ∧ xs ≤ ys := by
  rw [← not_lt, List.cons_lt_cons_iff, ← not_lt]
  rcases lt_trichotomy a b with h | h | h
  · simp [h, h.not_gt, h.ne']
  · simp [h]
  · simp [h, h.not_gt, h.ne']

theorem lexLe_iff (xs ys : List Part) : lexLe xs ys = true ↔ xs.map partRank ≤ ys.map partRank := by
  fun_induction lexLe xs ys with
  | case1 ys | case2 p xs =>
    rw [List.map_nil, ← not_lt]
    simp
  | case3 xs ys ih =>
    rw [List.map_cons, List.map_cons, cons_le_cons_iff]
    simp [ih]
  | case4 xs b ys hne =>
    rw [List.map_cons, List.map_cons, cons_le_cons_iff]
    cases b <;> simp_all [partRank, Prod.Lex.toLex_lt_toLex]
  | case5 a xs ys hne =>
    rw [List.map_cons, List.map_cons, cons_le_cons_iff]
    cases a <;> simp_all [partRank, Prod.Lex.toLex_lt_toLex]
  | case6 xs b ys ih =>
    rw [List.map_cons, List.map_cons, cons_le_cons_iff]
    simp [ih]
  | case7 a xs b ys hne =>
    rw [List.map_cons, List.map_cons, cons_le_cons_iff]
    simp [partRank, hne, Prod.Lex.toLex_lt_toLex]
  | case8 xs b ys ih =>
    rw [List.map_cons, List.map_cons, cons_le_cons_iff]
    simp [ih]
  | case9 a xs b ys hne =>
    rw [List.map_cons, List.map_cons, cons_le_cons_iff]
    simp [partRank, hne, Prod.Lex.toLex_lt_toLex]
  | case10 | case11 =>
    rw [List.map_cons, List.map_cons, cons_le_cons_iff]
    simp [partRank, Prod.Lex.toLex_lt_toLex]

theorem lexLe_total (xs ys : List Part) : lexLe xs ys = true ∨ lexLe ys xs = true := by
  rw [lexLe_iff, lexLe_iff]
  exact le_total _ _

variable {xs ys : List Part}

theorem lexLe_trans {zs : List Part} (hxy : lexLe xs ys = true) (hyz : lexLe ys zs = true) :
    lexLe xs zs = true := by
  rw [lexLe_iff] at *
  exact hxy.trans hyz

theorem lexLe_antisymm (hxy : lexLe xs ys = true) (hyx : lexLe ys xs = true) : xs = ys := by
  rw [lexLe_iff] at *
  exact partRank_injective.list_map (hxy.antisymm hyx)

theorem identityLt_asymm (xs ys : List Part) :
    ¬(identityLt xs ys = true ∧ identityLt ys xs = true) := by
  unfold identityLt
  rcases lexLe_total xs ys with h | h
  · simp [h]
  · simp [h]

theorem eq_of_identities_tied (h : compareSortKeys identityLt xs ys = .eq) : xs = ys := by
  unfold compareSortKeys at h
  cases hlt : identityLt xs ys with
  | true => simp [hlt] at h
  | false =>
    cases hgt : identityLt ys xs with
    | true => simp [hlt, hgt] at h
    | false =>
      rw [identityLt, Bool.not_eq_false'] at hlt hgt
      exact lexLe_antisymm hgt hlt

theorem sortedBy_eq_of_perm {α : Type} {key : α → List Part} {xs ys : List α}
    (hn : (xs.map key).Nodup) (hp : ys.Perm xs) : sortedBy key ys = sortedBy key xs := by
  have hordered : ∀ zs : List α,
      (sortedBy key zs).Pairwise fun a b => lexLe (key a) (key b) = true := by
    intro zs
    have htrans : IsTrans α fun a b => lexLe (key a) (key b) = true := ⟨fun _ _ _ => lexLe_trans⟩
    have htotal : Std.Total fun a b : α => lexLe (key a) (key b) = true :=
      ⟨fun _ _ => lexLe_total _ _⟩
    exact List.pairwise_insertionSort _ zs
  apply List.Perm.eq_of_pairwise _ (hordered ys) (hordered xs)
    ((sortedBy_perm key ys).trans (hp.trans (sortedBy_perm key xs).symm))
  intro a b ha hb hab hba
  have ha' := hp.mem_iff.mp ((sortedBy_perm key ys).mem_iff.mp ha)
  have hb' := (sortedBy_perm key xs).mem_iff.mp hb
  exact List.inj_on_of_nodup_map hn ha' hb' (lexLe_antisymm hab hba)

section
variable {ρ : Type} {env : OrderEnv} {resolve : Resolve ρ} {identity : ρ → List Part}

theorem SortDirection.orient_eq (d : SortDirection) (o : Ordering) :
    d.orient o = .eq ↔ o = .eq := by
  cases d with
  | asc => rfl
  | desc => cases o <;> simp [SortDirection.orient]

theorem SortDirection.orient_swap (d : SortDirection) (o : Ordering) :
    d.orient o.swap = (d.orient o).swap := by
  cases d with
  | asc => rfl
  | desc => rfl

theorem compareKey_swap (text : OrderValue → String) (d : SortDirection)
    (left right : Option OrderValue) :
    compareKey text d right left = (compareKey text d left right).swap := by
  cases left with
  | none =>
    cases right with
    | none => rfl
    | some r => rfl
  | some l =>
    cases right with
    | none => rfl
    | some r =>
      rw [compareKey, compareKey, compareOrderValues_swap text l r, SortDirection.orient_swap]

variable {left right x y z : ρ} {o : Ordering} {order : QueryOrderSpec}
  {orderBy later : List QueryOrderSpec} {a b : OrderValue} {rows : List ρ}
  {text : OrderValue → String}

theorem compareRows_cons :
    compareRows env resolve identity left right (order :: orderBy) = .ok o ↔
      ∃ l r, resolveOrderValue env resolve order left = .ok l ∧
        resolveOrderValue env resolve order right = .ok r ∧
        (compareKey env.text order.direction l r = .eq ∧
            compareRows env resolve identity left right orderBy = .ok o ∨
          compareKey env.text order.direction l r ≠ .eq ∧
            compareKey env.text order.direction l r = o) := by
  rw [compareRows]
  constructor
  case mp =>
    intro h
    have ⟨l, hl, h⟩ := bind_eq_ok.mp h
    have ⟨r, hr, h⟩ := bind_eq_ok.mp h
    refine ⟨l, r, hl, hr, ?_⟩
    cases hkey : compareKey env.text order.direction l r with
    | eq =>
      rw [hkey] at h
      exact .inl ⟨rfl, h⟩
    | lt | gt =>
      rw [hkey] at h
      exact .inr ⟨nofun, pure_eq_ok.mp h⟩
  case mpr =>
    intro ⟨l, r, hl, hr, h⟩
    rw [hl, hr]
    rcases h with ⟨hkey, h⟩ | ⟨hkey, rfl⟩
    · change (match compareKey env.text order.direction l r with
        | .eq => compareRows env resolve identity left right orderBy
        | o => pure o) = _
      rw [hkey]
      exact h
    · change (match compareKey env.text order.direction l r with
        | .eq => compareRows env resolve identity left right orderBy
        | o => pure o) = _
      cases hkey' : compareKey env.text order.direction l r with
      | eq => exact absurd hkey' hkey
      | lt => rfl
      | gt => rfl

theorem compareRows_swap (h : compareRows env resolve identity left right orderBy = .ok o) :
    compareRows env resolve identity right left orderBy = .ok o.swap := by
  induction orderBy with
  | nil =>
    cases h
    rw [compareRows, compareSortKeys_swap identityLt_asymm]
  | cons order orderBy ih =>
    have ⟨l, r, hl, hr, h⟩ := compareRows_cons.mp h
    apply compareRows_cons.mpr
    refine ⟨r, l, hr, hl, ?_⟩
    rw [compareKey_swap env.text order.direction l r]
    rcases h with ⟨hkey, h⟩ | ⟨hkey, rfl⟩
    · rw [hkey]
      exact .inl ⟨rfl, ih h⟩
    · right
      constructor
      · intro heq
        rw [← Ordering.swap_swap (o := compareKey env.text order.direction l r), heq] at hkey
        exact hkey rfl
      · rfl

theorem identity_eq_of_tied (h : compareRows env resolve identity left right orderBy = .ok .eq) :
    identity left = identity right := by
  induction orderBy with
  | nil =>
    rw [compareRows, Except.ok.injEq] at h
    exact eq_of_identities_tied h
  | cons order orderBy ih =>
    have ⟨l, r, hl, hr, h⟩ := compareRows_cons.mp h
    rcases h with ⟨_, h⟩ | ⟨hkey, h⟩
    · exact ih h
    · exact absurd h hkey

/-- `compare(left, right) < 0`. -/
abbrev Before (env : OrderEnv) (resolve : Resolve ρ) (identity : ρ → List Part)
    (orderBy : List QueryOrderSpec) (left right : ρ) : Prop :=
  compareRows env resolve identity left right orderBy = .ok .lt

theorem before_asymm (h : Before env resolve identity orderBy x y) :
    ¬Before env resolve identity orderBy y x := by
  intro h'
  have hswap := compareRows_swap h
  rw [h'] at hswap
  cases hswap

theorem rowLt_answers (h : compareRows env resolve identity x y orderBy = .ok o) :
    Answers (rowLt env resolve identity orderBy) (Before env resolve identity orderBy) x y := by
  refine ⟨o == .lt, by rw [rowLt, h]; rfl, ?_⟩
  unfold Before
  rw [h, Except.ok.injEq, beq_iff_eq]

theorem before_cons :
    Before env resolve identity (order :: later) x y ↔
      ∃ l r, resolveOrderValue env resolve order x = .ok l ∧
        resolveOrderValue env resolve order y = .ok r ∧
        (compareKey env.text order.direction l r = .lt ∨
          compareKey env.text order.direction l r = .eq ∧
            Before env resolve identity later x y) := by
  unfold Before
  rw [compareRows_cons]
  constructor
  case mp =>
    intro ⟨l, r, hl, hr, h⟩
    refine ⟨l, r, hl, hr, ?_⟩
    rcases h with h | ⟨_, h⟩
    · exact .inr h
    · exact .inl h
  case mpr =>
    intro ⟨l, r, hl, hr, h⟩
    refine ⟨l, r, hl, hr, ?_⟩
    rcases h with h | h
    · exact .inr ⟨by rw [h]; nofun, h⟩
    · exact .inl h

/-- Rows that none of the keys tells apart. -/
def TiedUnder (env : OrderEnv) (resolve : Resolve ρ) (keys : List QueryOrderSpec) (x y : ρ) :
    Prop :=
  ∀ order ∈ keys, ∃ l r, resolveOrderValue env resolve order x = .ok l ∧
    resolveOrderValue env resolve order y = .ok r ∧
    compareKey env.text order.direction l r = .eq

/-- One value is before the other in the direction of the key, or ties with it where the
later keys put the one row before the other. -/
def Leads (env : OrderEnv) (resolve : Resolve ρ) (identity : ρ → List Part)
    (order : QueryOrderSpec) (later : List QueryOrderSpec) (x y : ρ) (a b : OrderValue) : Prop :=
  order.direction.orient (compareOrderValues env.text a b) = .lt ∨
    compareOrderValues env.text a b = .eq ∧ Before env resolve identity later x y

/-- Three values, of which each leads to the next and which do not all tie. -/
structure GoRound (env : OrderEnv) (resolve : Resolve ρ) (identity : ρ → List Part)
    (order : QueryOrderSpec) (later : List QueryOrderSpec) (x y z : ρ) (a b c : OrderValue) :
    Prop where
  first : resolveOrderValue env resolve order x = .ok (some a)
  second : resolveOrderValue env resolve order y = .ok (some b)
  third : resolveOrderValue env resolve order z = .ok (some c)
  there : Leads env resolve identity order later x y a b
  onward : Leads env resolve identity order later y z b c
  back : Leads env resolve identity order later z x c a
  apart : ¬(compareOrderValues env.text a b = .eq ∧ compareOrderValues env.text b c = .eq ∧
    compareOrderValues env.text c a = .eq)

/-- The values of three rows go round under a key, and no earlier one tells the rows apart. -/
def RoundUnder (env : OrderEnv) (resolve : Resolve ρ) (identity : ρ → List Part)
    (orderBy : List QueryOrderSpec) (x y z : ρ) : Prop :=
  ∃ earlier order later, orderBy = earlier ++ order :: later ∧
    TiedUnder env resolve earlier x y ∧ TiedUnder env resolve earlier y z ∧
      TiedUnder env resolve earlier z x ∧
        ∃ a b c, GoRound env resolve identity order later x y z a b c

def ValuesGoRound (env : OrderEnv) (resolve : Resolve ρ) (identity : ρ → List Part)
    (orderBy : List QueryOrderSpec) (rows : List ρ) : Prop :=
  ∃ x ∈ rows, ∃ y ∈ rows, ∃ z ∈ rows, RoundUnder env resolve identity orderBy x y z

theorem before_of_tied {earlier : List QueryOrderSpec} (htied : TiedUnder env resolve earlier x y)
    (h : Before env resolve identity later x y) :
    Before env resolve identity (earlier ++ later) x y := by
  induction earlier with
  | nil => exact h
  | cons order earlier ih =>
    have ⟨l, r, hl, hr, heq⟩ := htied order List.mem_cons_self
    have hrest := ih fun o ho => htied o (List.mem_cons_of_mem order ho)
    exact before_cons.mpr ⟨l, r, hl, hr, .inr ⟨heq, hrest⟩⟩

theorem before_of_leads (ha : resolveOrderValue env resolve order x = .ok (some a))
    (hb : resolveOrderValue env resolve order y = .ok (some b))
    (h : Leads env resolve identity order later x y a b) :
    Before env resolve identity (order :: later) x y := by
  apply before_cons.mpr
  refine ⟨some a, some b, ha, hb, ?_⟩
  rcases h with h | ⟨heq, h⟩
  · exact .inl h
  · right
    constructor
    · rw [compareKey, SortDirection.orient_eq]
      exact heq
    · exact h

theorem circle_of_valuesGoRound (h : ValuesGoRound env resolve identity orderBy rows) :
    Circle (Before env resolve identity orderBy) rows := by
  have ⟨x, hx, y, hy, z, hz, earlier, order, later, horder, hxy, hyz, hzx, a, b, c, hround⟩ := h
  rw [horder]
  refine ⟨x, hx, y, hy, z, hz, ?_, ?_, ?_⟩
  · exact before_of_tied hxy (before_of_leads hround.first hround.second hround.there)
  · exact before_of_tied hyz (before_of_leads hround.second hround.third hround.onward)
  · exact before_of_tied hzx (before_of_leads hround.third hround.first hround.back)

theorem identities_do_not_go_round {zs : List Part} (hxy : identityLt xs ys = true)
    (hyz : identityLt ys zs = true) : identityLt zs xs = false := by
  unfold identityLt at *
  rw [Bool.not_eq_true', ← Bool.not_eq_true, lexLe_iff, not_le] at hxy hyz
  rw [Bool.not_eq_false', lexLe_iff]
  exact (hxy.trans hyz).le

theorem present_of_round {d : SortDirection} {l r s : Option OrderValue}
    (hlr : compareKey text d l r ≠ .gt) (hrs : compareKey text d r s ≠ .gt)
    (hsl : compareKey text d s l ≠ .gt)
    (hapart : ¬(compareKey text d l r = .eq ∧ compareKey text d r s = .eq ∧
      compareKey text d s l = .eq)) : ∃ a b c, l = some a ∧ r = some b ∧ s = some c := by
  cases l with
  | none =>
    cases r with
    | some b => exact absurd rfl hlr
    | none =>
      cases s with
      | some c => exact absurd rfl hrs
      | none => exact absurd ⟨rfl, rfl, rfl⟩ hapart
  | some a =>
    cases s with
    | none => exact absurd rfl hsl
    | some c =>
      cases r with
      | none => exact absurd rfl hrs
      | some b => exact ⟨a, b, c, rfl, rfl, rfl⟩

theorem roundUnder_cons (hxy : Before env resolve identity (order :: orderBy) x y)
    (hyz : Before env resolve identity (order :: orderBy) y z)
    (hzx : Before env resolve identity (order :: orderBy) z x)
    (ih : Before env resolve identity orderBy x y → Before env resolve identity orderBy y z →
      Before env resolve identity orderBy z x → RoundUnder env resolve identity orderBy x y z) :
    RoundUnder env resolve identity (order :: orderBy) x y z := by
  have ⟨l, r, hl, hr, hlr⟩ := before_cons.mp hxy
  have ⟨r', s, hr', hs, hrs⟩ := before_cons.mp hyz
  have ⟨s', l', hs', hl', hsl⟩ := before_cons.mp hzx
  rw [hr, Except.ok.injEq] at hr'
  rw [hs, Except.ok.injEq] at hs'
  rw [hl, Except.ok.injEq] at hl'
  rw [← hr'] at hrs
  rw [← hs', ← hl'] at hsl
  by_cases hall : compareKey env.text order.direction l r = .eq ∧
      compareKey env.text order.direction r s = .eq ∧
      compareKey env.text order.direction s l = .eq
  · have hrest : ∀ {o : Ordering} {P : Prop}, o = .lt ∨ o = .eq ∧ P → o = .eq → P := by
      intro o P h ho
      rcases h with h | h
      · rw [ho] at h
        cases h
      · exact h.2
    have ⟨earlier, key, later, horder, htxy, htyz, htzx, hround⟩ :=
      ih (hrest hlr hall.1) (hrest hrs hall.2.1) (hrest hsl hall.2.2)
    refine ⟨order :: earlier, key, later, by rw [horder]; rfl, ?_, ?_, ?_, hround⟩
    · exact List.forall_mem_cons.mpr ⟨⟨l, r, hl, hr, hall.1⟩, htxy⟩
    · exact List.forall_mem_cons.mpr ⟨⟨r, s, hr, hs, hall.2.1⟩, htyz⟩
    · exact List.forall_mem_cons.mpr ⟨⟨s, l, hs, hl, hall.2.2⟩, htzx⟩
  · have hnotAfter : ∀ {o : Ordering} {P : Prop}, o = .lt ∨ o = .eq ∧ P → o ≠ .gt := by
      intro o P h
      rcases h with h | h
      · rw [h]
        nofun
      · rw [h.1]
        nofun
    have ⟨a, b, c, ha, hb, hc⟩ :=
      present_of_round (hnotAfter hlr) (hnotAfter hrs) (hnotAfter hsl) hall
    rw [ha] at hl hlr hsl hall
    rw [hb] at hr hlr hrs hall
    rw [hc] at hs hrs hsl hall
    simp only [compareKey, SortDirection.orient_eq] at hlr hrs hsl hall
    exact ⟨[], order, orderBy, rfl, nofun, nofun, nofun, a, b, c,
      ⟨hl, hr, hs, hlr, hrs, hsl, hall⟩⟩

theorem roundUnder_of_circle (hxy : Before env resolve identity orderBy x y)
    (hyz : Before env resolve identity orderBy y z) (hzx : Before env resolve identity orderBy z x) :
    RoundUnder env resolve identity orderBy x y z := by
  induction orderBy with
  | nil =>
    have hlt : ∀ {x y : ρ}, Before env resolve identity [] x y →
        identityLt (identity x) (identity y) = true := by
      intro x y h
      unfold Before at h
      rw [compareRows, compareSortKeys, Except.ok.injEq] at h
      by_contra hn
      rw [if_neg hn] at h
      split_ifs at h
    have hback := identities_do_not_go_round (hlt hxy) (hlt hyz)
    rw [hlt hzx] at hback
    cases hback
  | cons order orderBy ih => exact roundUnder_cons hxy hyz hzx ih

theorem sortRows_alike_iff (s : Sorter) (hn : (rows.map identity).Nodup)
    (hreturns : rows.Pairwise fun x y => ∃ o,
      compareRows env resolve identity x y orderBy = .ok o) :
    (∀ ys zs, ys.Perm rows → zs.Perm rows →
        sortRows s env resolve identity orderBy ys = sortRows s env resolve identity orderBy zs) ↔
      ¬ValuesGoRound env resolve identity orderBy rows := by
  cases orderBy with
  | nil =>
    constructor
    case mp =>
      intro _ ⟨_, _, _, _, _, _, earlier, order, later, horder, _⟩
      cases earlier <;> cases horder
    case mpr =>
      intro _ ys zs hys hzs
      change Except.ok (sortedBy identity ys) = .ok (sortedBy identity zs)
      rw [sortedBy_eq_of_perm hn hys, sortedBy_eq_of_perm hn hzs]
  | cons order later =>
    have hdecides : Decides (rowLt env resolve identity (order :: later)) rows
        (Before env resolve identity (order :: later)) := by
      apply hreturns.imp
      intro x y ⟨o, ho⟩
      exact ⟨rowLt_answers ho, rowLt_answers (compareRows_swap ho)⟩
    have hconnected : ∀ x ∈ rows, ∀ y ∈ rows, x ≠ y →
        Before env resolve identity (order :: later) x y ∨
          Before env resolve identity (order :: later) y x := by
      intro x hx y hy hxy
      have ⟨o, ho⟩ : ∃ o, compareRows env resolve identity x y (order :: later) = .ok o := by
        have hsymm : Std.Symm fun x y => ∃ o,
            compareRows env resolve identity x y (order :: later) = .ok o :=
          ⟨fun _ _ ⟨o, ho⟩ => ⟨o.swap, compareRows_swap ho⟩⟩
        exact hreturns.forall hx hy hxy
      cases o with
      | lt => exact .inl ho
      | gt => exact .inr (compareRows_swap ho)
      | eq => exact absurd (List.inj_on_of_nodup_map hn hx hy (identity_eq_of_tied ho)) hxy
    have hiff := s.invariant_iff hn.of_map hdecides (fun x _ y _ => before_asymm) hconnected
    constructor
    case mp =>
      intro halike hround
      exact hiff.mp halike (circle_of_valuesGoRound hround)
    case mpr =>
      intro hround
      apply hiff.mpr
      intro ⟨x, hx, y, hy, z, hz, hxy, hyz, hzx⟩
      exact hround ⟨x, hx, y, hy, z, hz, roundUnder_of_circle hxy hyz hzx⟩

/-- Under each key, the values that are there are of one kind. -/
def OneKindEach (env : OrderEnv) (resolve : Resolve ρ) (orderBy : List QueryOrderSpec)
    (rows : List ρ) : Prop :=
  ∀ order ∈ orderBy, ∃ k, ∀ x ∈ rows, ∀ a,
    resolveOrderValue env resolve order x = .ok (some a) → kind? a = some k

theorem tied_of_notAfter (hab : compareOrderValues text a b ≠ .gt)
    (hba : compareOrderValues text b a ≠ .gt) : compareOrderValues text a b = .eq := by
  rw [compareOrderValues_swap text a b] at hba
  cases h : compareOrderValues text a b with
  | lt => rw [h] at hba; exact absurd rfl hba
  | eq => rfl
  | gt => exact absurd h hab

variable {c : OrderValue}

theorem tied_of_round {k : Kind} (ha : kind? a = some k) (hb : kind? b = some k)
    (hc : kind? c = some k) (hab : compareOrderValues text a b ≠ .gt)
    (hbc : compareOrderValues text b c ≠ .gt) (hca : compareOrderValues text c a ≠ .gt) :
    compareOrderValues text a b = .eq ∧ compareOrderValues text b c = .eq ∧
      compareOrderValues text c a = .eq := by
  have hba := notAfter_trans hb hc ha hbc hca
  have hcb := notAfter_trans hc ha hb hca hab
  have hac := notAfter_trans ha hb hc hab hbc
  exact ⟨tied_of_notAfter hab hba, tied_of_notAfter hbc hcb, tied_of_notAfter hca hac⟩

theorem tied_of_goRound {k : Kind} (ha : kind? a = some k) (hb : kind? b = some k)
    (hc : kind? c = some k) (h : GoRound env resolve identity order later x y z a b c) : False := by
  have hled : ∀ {x y : ρ} {a b : OrderValue}, Leads env resolve identity order later x y a b →
      order.direction.orient (compareOrderValues env.text a b) ≠ .gt := by
    intro x y a b h
    rcases h with h | ⟨h, _⟩
    · rw [h]
      nofun
    · rw [(SortDirection.orient_eq _ _).mpr h]
      nofun
  have hab := hled h.there
  have hbc := hled h.onward
  have hca := hled h.back
  cases hd : order.direction with
  | asc =>
    rw [hd] at hab hbc hca
    exact h.apart (tied_of_round ha hb hc hab hbc hca)
  | desc =>
    rw [hd] at hab hbc hca
    simp only [SortDirection.orient, ← compareOrderValues_swap] at hab hbc hca
    have ⟨hcb, hba, hac⟩ := tied_of_round hc hb ha hbc hab hca
    have hturn : ∀ {a b}, compareOrderValues env.text a b = .eq →
        compareOrderValues env.text b a = .eq := by
      intro a b h
      rw [compareOrderValues_swap env.text a b, h]
      rfl
    exact h.apart ⟨hturn hba, hturn hcb, hturn hac⟩

theorem not_goRound_of_oneKind (h : OneKindEach env resolve orderBy rows) :
    ¬ValuesGoRound env resolve identity orderBy rows := by
  intro ⟨x, hx, y, hy, z, hz, earlier, order, later, horder, _, _, _, a, b, c, hround⟩
  have ⟨k, hk⟩ := h order (by simp [horder])
  exact tied_of_goRound (hk x hx a hround.first) (hk y hy b hround.second)
    (hk z hz c hround.third) hround

end

/-- A value of a property; `null` is `None`. -/
def orderValue? : Value → Option OrderValue
  | .null => none
  | v => if h : v.keyed = true then some (.json v h) else none

/-- `resolve_query_row_ref` of a reference `$result.properties.name`. -/
def resultProperty : Resolve QueryRowContext := fun ref c =>
  .ok ((c.result.properties.entries.find? fun e =>
    "$result.properties." ++ e.1 = ref).bind fun e => orderValue? e.2)

/-- Without `value_type` or `enum_ref` no value is coerced or printed in an error. -/
def plainEnv : OrderEnv where
  text _ := ""
  repr _ := ""
  coerce _ _ := none

def scored (entityId : String) (score : Value) : QueryRowContext where
  shape := .entity
  entry := { entityType := "Case", entityId := entityId }
  result := { entityType := "Case", entityId := entityId, properties := .ofList [("score", score)] }
  entities := []
  path := []

def mixedRows : List QueryRowContext :=
  [scored "a" (.float (.finite (1 / 2))), scored "b" (.bool true), scored "c" (.object [])]

/-- The same rows, turned round by one. -/
def turnedRows : List QueryRowContext :=
  [scored "b" (.bool true), scored "c" (.object []), scored "a" (.float (.finite (1 / 2)))]

theorem turnedRows_perm : turnedRows.Perm mixedRows := by
  apply List.Perm.symm
  exact (List.Perm.swap _ _ _).trans ((List.Perm.swap _ _ _).cons _)

def byScore : QueryOrderSpec := { ref := "$result.properties.score" }

def ids (sorted : Except CoreError (List QueryRowContext)) : Option (List String) :=
  sorted.toOption.map fun rows => rows.map fun c => c.result.entityId

theorem mixedRows_nodup : (mixedRows.map stableRowIdentity).Nodup := by decide +kernel

theorem byScore_returns (x y : QueryRowContext) :
    ∃ o, compareRows plainEnv resultProperty stableRowIdentity x y [byScore] = .ok o := by
  have hvalue : ∀ c, ∃ v, resolveOrderValue plainEnv resultProperty byScore c = .ok v := by
    intro c
    unfold resolveOrderValue resultProperty
    cases (c.result.properties.entries.find? fun e =>
      decide ("$result.properties." ++ e.1 = byScore.ref)).bind fun e => orderValue? e.2 with
    | none => exact ⟨none, rfl⟩
    | some v => exact ⟨some v, rfl⟩
  have ⟨l, hl⟩ := hvalue x
  have ⟨r, hr⟩ := hvalue y
  by_cases hkey : compareKey plainEnv.text byScore.direction l r = .eq
  · exact ⟨_, compareRows_cons.mpr ⟨l, r, hl, hr, .inl ⟨hkey, rfl⟩⟩⟩
  · exact ⟨_, compareRows_cons.mpr ⟨l, r, hl, hr, .inr ⟨hkey, rfl⟩⟩⟩

example : ids (sortQueryRowContexts insertion plainEnv resultProperty [byScore] mixedRows) =
  some ["a", "b", "c"] := by decide +kernel

theorem mixedRows_sorted_apart :
    sortQueryRowContexts insertion plainEnv resultProperty [byScore] mixedRows ≠
      sortQueryRowContexts insertion plainEnv resultProperty [byScore] turnedRows := by
  intro h
  have hids := congrArg ids h
  revert hids
  decide +kernel

def included (entityId : String) : QueryIncludeItem where
  edge := { aliasName := none, relationshipType := "cites", fromType := "Case", fromId := "a"
            toType := "Case", toId := entityId, edgeKey := 0, claimId := "c-" ++ entityId
            properties := ∅, metadata := {} }
  source := { entityType := "Case", entityId := "a" }
  target := { entityType := "Case", entityId := entityId }

/-- Result rows, and the relationships included with one, are in an order of their own
exactly when no values of theirs go round. -/
theorem rows_and_includes_sorted_alike_iff (s : Sorter) (env : OrderEnv)
    (orderBy : List QueryOrderSpec) :
    (∀ (resolve : Resolve QueryRowContext) (rows : List QueryRowContext),
      (rows.map stableRowIdentity).Nodup →
      (rows.Pairwise fun x y => ∃ o,
        compareRows env resolve stableRowIdentity x y orderBy = .ok o) →
      ((∀ ys zs, ys.Perm rows → zs.Perm rows → sortQueryRowContexts s env resolve orderBy ys =
          sortQueryRowContexts s env resolve orderBy zs) ↔
        ¬ValuesGoRound env resolve stableRowIdentity orderBy rows)) ∧
    ∀ (resolve : Resolve QueryIncludeItem) (items : List QueryIncludeItem),
      (items.map includeItemIdentity).Nodup →
      (items.Pairwise fun x y => ∃ o,
        compareRows env resolve includeItemIdentity x y orderBy = .ok o) →
      ((∀ ys zs, ys.Perm items → zs.Perm items → sortIncludeItems s env resolve orderBy ys =
          sortIncludeItems s env resolve orderBy zs) ↔
        ¬ValuesGoRound env resolve includeItemIdentity orderBy items) := by
  constructor
  case left =>
    intro resolve rows hn hreturns
    exact sortRows_alike_iff s hn hreturns
  case right =>
    intro resolve items hn hreturns
    exact sortRows_alike_iff s hn hreturns

/-- A half is before true, true is before an empty mapping, and that is before the half. -/
theorem rows_sorted_by_their_order :
    ¬∀ (orderBy : List QueryOrderSpec) (rows ys zs : List QueryRowContext),
      (rows.map stableRowIdentity).Nodup → ys.Perm rows → zs.Perm rows →
        sortQueryRowContexts insertion plainEnv resultProperty orderBy ys =
          sortQueryRowContexts insertion plainEnv resultProperty orderBy zs := by
  intro h
  exact mixedRows_sorted_apart (h [byScore] mixedRows mixedRows turnedRows mixedRows_nodup
    (List.Perm.refl _) turnedRows_perm)

theorem mixed_rows_go_round :
    ValuesGoRound plainEnv resultProperty stableRowIdentity [byScore] mixedRows ∧
      ∀ ys zs, ys.Perm [included "b", included "c"] → zs.Perm [included "b", included "c"] →
        sortIncludeItems insertion plainEnv (fun _ _ => .ok none) [byScore] ys =
          sortIncludeItems insertion plainEnv (fun _ _ => .ok none) [byScore] zs := by
  constructor
  case left =>
    by_contra hround
    have halike := ((rows_and_includes_sorted_alike_iff insertion plainEnv [byScore]).1
      resultProperty mixedRows mixedRows_nodup
      (List.pairwise_of_forall byScore_returns)).mpr hround
    exact mixedRows_sorted_apart
      (halike mixedRows turnedRows (List.Perm.refl _) turnedRows_perm)
  case right =>
    apply ((rows_and_includes_sorted_alike_iff insertion plainEnv [byScore]).2 (fun _ _ => .ok none)
      [included "b", included "c"] (by decide +kernel) ?_).mpr
    · apply not_goRound_of_oneKind
      intro order _
      exact ⟨.number, fun x _ a h => by cases h⟩
    · exact List.pairwise_of_forall fun x y => ⟨_, rfl⟩

end Cruxible.QueryOrdering
