import Mathlib.Data.List.Lex
import Mathlib.Data.String.Basic

/-!
# Timestamps as text

A stored timestamp is text, and the tables compare it as text. The texts that
`isoformat` writes for moments in UTC have fields of fixed width in the order of
their weight, so the order of the texts is the order of the moments, although the
microseconds are left out where they are zero.
-/
namespace Cruxible.Timestamps

section Lexicographic
variable {α : Type} [LinearOrder α]

theorem append_lt_append_iff {p q s t : List α} (h : p.length = q.length) :
    p ++ s < q ++ t ↔ p < q ∨ (p = q ∧ s < t) := by
  induction p generalizing q with
  | nil =>
    obtain rfl : q = [] := List.length_eq_zero_iff.mp h.symm
    simp
  | cons a p ih =>
    cases q with
    | nil => cases h
    | cons b q =>
      have hlen : p.length = q.length := by simpa using h
      simp only [List.cons_append, List.cons_lt_cons_iff, ih hlen, List.cons.injEq]
      tauto

end Lexicographic

/-- `n` in decimal, to `width` digits. -/
def pad : Nat → Nat → List Char
  | 0, _ => []
  | width + 1, n => pad width (n / 10) ++ [(n % 10).digitChar]

@[simp] theorem length_pad (width n : Nat) : (pad width n).length = width := by
  induction width generalizing n with
  | zero => rfl
  | succ width ih => simp [pad, ih]

theorem digitChar_lt_iff : ∀ a b : Fin 10, a.val.digitChar < b.val.digitChar ↔ a < b := by decide

theorem digitChar_inj : ∀ a b : Fin 10, a.val.digitChar = b.val.digitChar ↔ a = b := by decide

variable {width : Nat}

theorem pad_inj {n m : Nat} (hn : n < 10 ^ width) (hm : m < 10 ^ width) :
    pad width n = pad width m ↔ n = m := by
  induction width generalizing n m with
  | zero =>
    rw [pow_zero, Nat.lt_one_iff] at hn hm
    simp [hn, hm]
  | succ width ih =>
    rw [pow_succ] at hn hm
    have hdigit := digitChar_inj ⟨n % 10, by omega⟩ ⟨m % 10, by omega⟩
    rw [Fin.mk.injEq] at hdigit
    rw [pad, pad, List.append_singleton_inj, ih (by omega) (by omega), hdigit]
    omega

theorem pad_lt_pad_iff {n m : Nat} (hn : n < 10 ^ width) (hm : m < 10 ^ width) :
    pad width n < pad width m ↔ n < m := by
  induction width generalizing n m with
  | zero =>
    rw [pow_zero, Nat.lt_one_iff] at hn hm
    simp [pad, hn, hm]
  | succ width ih =>
    rw [pow_succ] at hn hm
    have hdigit := digitChar_lt_iff ⟨n % 10, by omega⟩ ⟨m % 10, by omega⟩
    rw [Fin.mk_lt_mk] at hdigit
    rw [pad, pad, append_lt_append_iff (by simp), ih (by omega) (by omega),
      pad_inj (by omega) (by omega), List.cons_lt_cons_iff, hdigit]
    simp only [List.not_lt_nil, and_false, or_false]
    omega

def leapYear (year : Nat) : Bool := year % 4 = 0 && (year % 100 != 0 || year % 400 = 0)

def daysInMonth (year : Nat) : Nat → Nat
  | 2 => if leapYear year then 29 else 28
  | 4 | 6 | 9 | 11 => 30
  | _ => 31

/-- A day of the calendar. -/
structure Date where
  year : Nat
  month : Nat
  day : Nat
  year_range : 1 ≤ year ∧ year ≤ 9999 := by decide
  month_range : 1 ≤ month ∧ month ≤ 12 := by decide
  day_range : 1 ≤ day ∧ day ≤ daysInMonth year month := by decide
  deriving DecidableEq

/-- A moment of the calendar, to the microsecond and without an offset. -/
structure Moment extends Date where
  hour : Nat := 0
  minute : Nat := 0
  second : Nat := 0
  microsecond : Nat := 0
  time_range : hour < 24 ∧ minute < 60 ∧ second < 60 ∧ microsecond < 1000000 := by decide
  deriving DecidableEq

namespace Moment

def fields (m : Moment) : List Nat :=
  [m.year, m.month, m.day, m.hour, m.minute, m.second, m.microsecond]

/-- Earlier than. -/
instance : LT Moment := ⟨fun a b => a.fields < b.fields⟩

instance (a b : Moment) : Decidable (a < b) := inferInstanceAs (Decidable (a.fields < b.fields))

theorem lt_def {a b : Moment} : a < b ↔ a.fields < b.fields := Iff.rfl

theorem fields_injective : Function.Injective fields := by
  intro a b h
  obtain ⟨⟨_, _, _, _, _, _⟩, _, _, _, _, _⟩ := a
  obtain ⟨⟨_, _, _, _, _, _⟩, _, _, _, _, _⟩ := b
  simp only [fields, List.cons.injEq, and_true] at h
  simp only [mk.injEq, Date.mk.injEq]
  tauto

theorem day_le (m : Moment) : m.day ≤ 31 := by
  have hday := m.day_range.2
  unfold daysInMonth at hday
  split at hday <;> (try split at hday) <;> omega

end Moment

theorem one_le_daysInMonth (year month : Nat) : 1 ≤ daysInMonth year month := by
  unfold daysInMonth
  split
  · split <;> omega
  · omega
  · omega
  · omega
  · omega
  · omega

/-- The day after, which the last day of the calendar does not have. -/
def Date.next (d : Date) : Option Date :=
  if h : d.day + 1 ≤ daysInMonth d.year d.month then
    some { d with day := d.day + 1, day_range := ⟨by omega, h⟩ }
  else if h : d.month < 12 then
    some { d with
      month := d.month + 1
      day := 1
      month_range := ⟨by omega, h⟩
      day_range := ⟨le_rfl, one_le_daysInMonth _ _⟩ }
  else if h : d.year < 9999 then
    some { year := d.year + 1, month := 1, day := 1
           year_range := ⟨by omega, h⟩
           day_range := ⟨le_rfl, one_le_daysInMonth _ _⟩ }
  else none

/-- The day before, which the first day of the calendar does not have. -/
def Date.previous (d : Date) : Option Date :=
  if h : 1 < d.day then
    some { d with
      day := d.day - 1
      day_range := ⟨by omega, (Nat.sub_le _ _).trans d.day_range.2⟩ }
  else if h : 1 < d.month then
    some { d with
      month := d.month - 1
      day := daysInMonth d.year (d.month - 1)
      month_range := ⟨by omega, (Nat.sub_le _ _).trans d.month_range.2⟩
      day_range := ⟨one_le_daysInMonth _ _, le_rfl⟩ }
  else if h : 1 < d.year then
    some { year := d.year - 1, month := 12, day := 31
           year_range := ⟨by omega, (Nat.sub_le _ _).trans d.year_range.2⟩
           day_range := ⟨by omega, le_refl (daysInMonth (d.year - 1) 12)⟩ }
  else none

/-- Microseconds of a day. -/
def dayLength : Nat := 86400000000

/-- Microseconds since midnight. -/
def Moment.timeOfDay (m : Moment) : Nat :=
  ((m.hour * 60 + m.minute) * 60 + m.second) * 1000000 + m.microsecond

def Date.at (d : Date) (time : Nat) (h : time < dayLength) : Moment :=
  { d with
    hour := time / 3600000000
    minute := time / 60000000 % 60
    second := time / 1000000 % 60
    microsecond := time % 1000000
    time_range := by
      unfold dayLength at h
      omega }

/-- A moment with its offset from UTC in microseconds, if it has one. -/
structure Datetime where
  moment : Moment
  offset : Option Int := none
  offset_range : ∀ o, offset = some o → o.natAbs < dayLength := by simp

/-- `ensure_utc`: without an offset a moment is in UTC. A moment that is outside the
calendar in UTC raises `OverflowError`. -/
def ensureUtc (d : Datetime) : Option Moment :=
  match h : d.offset with
  | none => some d.moment
  | some o =>
      if o = 0 then some d.moment
      else if hneg : (d.moment.timeOfDay : Int) - o < 0 then
        d.moment.previous.map fun day =>
          day.at ((d.moment.timeOfDay : Int) - o + dayLength).toNat (by
            have hrange := d.offset_range o h
            omega)
      else if hlt : ((d.moment.timeOfDay : Int) - o).toNat < dayLength then
        some (d.moment.toDate.at ((d.moment.timeOfDay : Int) - o).toNat hlt)
      else
        d.moment.next.map fun day =>
          day.at ((d.moment.timeOfDay : Int) - o - dayLength).toNat (by
            have hrange := d.offset_range o h
            have htime := d.moment.time_range
            unfold Moment.timeOfDay dayLength at *
            omega)

theorem ensureUtc_utc {d : Datetime} (h : d.offset = none ∨ d.offset = some 0) :
    ensureUtc d = some d.moment := by
  unfold ensureUtc
  split
  · rfl
  · rename_i o ho
    rcases h with h | h
    · rw [h] at ho
      cases ho
    · rw [h, Option.some.injEq] at ho
      rw [if_pos ho.symm]

/-- The microseconds are written only where there are some. -/
def fraction (microsecond : Nat) : List Char :=
  if microsecond = 0 then [] else '.' :: pad 6 microsecond

/-- The offset of UTC, as it is written. -/
def zulu : List Char := ['+', '0', '0', ':', '0', '0']

/-- `isoformat` of a moment in UTC. -/
def isoformat (m : Moment) : List Char :=
  pad 4 m.year ++ '-' :: (pad 2 m.month ++ '-' :: (pad 2 m.day ++ 'T' :: (pad 2 m.hour ++
    ':' :: (pad 2 m.minute ++ ':' :: (pad 2 m.second ++ (fraction m.microsecond ++ zulu))))))

theorem fraction_lt_iff {a b : Nat} (ha : a < 1000000) (hb : b < 1000000) :
    fraction a ++ zulu < fraction b ++ zulu ↔ a < b := by
  have hpoint : '+' < '.' := by decide
  unfold fraction
  by_cases ha0 : a = 0 <;> by_cases hb0 : b = 0
  · simp [ha0, hb0]
  · rw [if_pos ha0, if_neg hb0]
    exact iff_of_true (List.cons_lt_cons_iff.mpr (.inl hpoint)) (by omega)
  · rw [if_neg ha0, if_pos hb0]
    refine iff_of_false ?_ (by omega)
    intro h
    rcases List.cons_lt_cons_iff.mp h with h | ⟨h, _⟩
    · exact absurd h hpoint.not_gt
    · exact absurd h hpoint.ne'
  · rw [if_neg ha0, if_neg hb0, List.cons_append, List.cons_append, List.cons_lt_cons_iff,
      append_lt_append_iff (by simp), pad_lt_pad_iff ha hb]
    simp

theorem isoformat_lt_iff {a b : Moment} : isoformat a < isoformat b ↔ a < b := by
  have hay := a.year_range
  have hby := b.year_range
  have ham := a.month_range
  have hbm := b.month_range
  have had := a.day_le
  have hbd := b.day_le
  have hat := a.time_range
  have hbt := b.time_range
  simp only [isoformat, Moment.lt_def, Moment.fields, List.cons_lt_cons_iff, length_pad,
    append_lt_append_iff, and_false, or_false, lt_irrefl, false_or, true_and]
  rw [pad_lt_pad_iff (by omega) (by omega), pad_lt_pad_iff (by omega) (by omega),
    pad_lt_pad_iff (by omega) (by omega), pad_lt_pad_iff (by omega) (by omega),
    pad_lt_pad_iff (by omega) (by omega), pad_lt_pad_iff (by omega) (by omega),
    pad_inj (by omega) (by omega), pad_inj (by omega) (by omega), pad_inj (by omega) (by omega),
    pad_inj (by omega) (by omega), pad_inj (by omega) (by omega), pad_inj (by omega) (by omega),
    fraction_lt_iff (by omega) (by omega)]

theorem isoformat_injective : Function.Injective isoformat := by
  intro a b h
  have hab : ¬a < b := fun hlt => (isoformat_lt_iff.mpr hlt).ne h
  have hba : ¬b < a := fun hlt => (isoformat_lt_iff.mpr hlt).ne h.symm
  rw [Moment.lt_def] at hab hba
  exact Moment.fields_injective (le_antisymm (not_lt.mp hba) (not_lt.mp hab))

theorem abbreviation_not_mem_pad (width n : Nat) : 'Z' ∉ pad width n := by
  have hdigit : ∀ d : Fin 10, 'Z' ≠ d.val.digitChar := by decide
  induction width generalizing n with
  | zero => simp [pad]
  | succ width ih =>
    rw [pad, List.mem_append, List.mem_singleton, not_or]
    exact ⟨ih (n / 10), hdigit ⟨n % 10, by omega⟩⟩

/-- The offset of UTC is written out. -/
theorem abbreviation_not_mem_isoformat (m : Moment) : 'Z' ∉ isoformat m := by
  have hfraction : 'Z' ∉ fraction m.microsecond := by
    unfold fraction
    split
    · simp
    · simp [abbreviation_not_mem_pad]
  simp [isoformat, zulu, abbreviation_not_mem_pad, hfraction]

/-- A moment that the examples share. -/
def newYear : Moment := { year := 2026, month := 1, day := 1 }

end Cruxible.Timestamps
