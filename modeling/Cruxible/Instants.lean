import Cruxible.Timestamps
import Mathlib.Tactic.IntervalCases

/-!
# Timestamps as instants

A datetime denotes a number of microseconds. `format_datetime` shifts it to UTC before it
writes it, so the texts of the tables are in the order of these numbers, and
`parse_datetime` finds the number again.
-/
namespace Cruxible.Timestamps

def daysBeforeYear (year : Nat) : Nat :=
  (year - 1) * 365 + (year - 1) / 4 - (year - 1) / 100 + (year - 1) / 400

def daysBeforeMonth (year month : Nat) : Nat :=
  [0, 0, 31, 59, 90, 120, 151, 181, 212, 243, 273, 304, 334].getD month 0 +
    if 2 < month && leapYear year then 1 else 0

def Date.toOrdinal (d : Date) : Nat :=
  daysBeforeYear d.year + daysBeforeMonth d.year d.month + d.day

/-- Microseconds since the midnight before the calendar. -/
def Moment.instant (m : Moment) : Nat := m.toOrdinal * dayLength + m.timeOfDay

def Datetime.instant (d : Datetime) : Int := d.moment.instant - d.offset.getD 0

/-- The calendar ends with the ordinal 3652059. -/
def Datetime.InCalendar (d : Datetime) : Prop :=
  dayLength ≤ d.instant ∧ d.instant < 3652060 * dayLength

variable {year month month' : Nat} {d e : Date} {m : Moment}

theorem daysBeforeYear_succ (hyear : 1 ≤ year) :
    daysBeforeYear (year + 1) = daysBeforeYear year + daysBeforeMonth year 12 + 31 := by
  obtain ⟨k, rfl⟩ := Nat.exists_eq_add_of_le' hyear
  have hmonth : daysBeforeMonth (k + 1) 12 = 334 + if leapYear (k + 1) then 1 else 0 := by
    simp [daysBeforeMonth]
  have hsmall : k / 100 ≤ k := Nat.div_le_self k 100
  rw [hmonth]
  simp only [daysBeforeYear, leapYear, Nat.add_sub_cancel, Nat.succ_div,
    Nat.dvd_iff_mod_eq_zero, Bool.and_eq_true, Bool.or_eq_true, decide_eq_true_eq, bne_iff_ne]
  split_ifs <;> omega

theorem daysBeforeYear_mono {year year' : Nat} (hyear : 1 ≤ year) (h : year ≤ year') :
    daysBeforeYear year ≤ daysBeforeYear year' := by
  induction year', h using Nat.le_induction with
  | base => exact le_rfl
  | succ k hk ih =>
    have hsucc := @daysBeforeYear_succ k (hyear.trans hk)
    omega

theorem daysBeforeMonth_succ (hpos : 1 ≤ month) (hlt : month < 12) :
    daysBeforeMonth year (month + 1) = daysBeforeMonth year month + daysInMonth year month := by
  cases hleap : leapYear year <;> interval_cases month <;>
    simp [daysBeforeMonth, daysInMonth, hleap]

theorem daysBeforeMonth_mono (hpos : 1 ≤ month) (hlt : month < month') (hle : month' ≤ 12) :
    daysBeforeMonth year month + daysInMonth year month ≤ daysBeforeMonth year month' := by
  induction month' with
  | zero => omega
  | succ k ih =>
    have hk := @daysBeforeMonth_succ year k
    by_cases heq : month = k
    · subst heq
      rw [hk hpos (by omega)]
    · have hlast := ih (by omega) (by omega)
      rw [hk (by omega) (by omega)]
      omega

theorem Date.ordinal_bounds (d : Date) :
    daysBeforeMonth d.year d.month + d.day ≤ daysBeforeMonth d.year 12 + 31 ∧ 1 ≤ d.day := by
  have hmonth := d.month_range
  have hday := d.day_range
  refine ⟨?_, hday.1⟩
  by_cases hlast : d.month = 12
  · rw [hlast] at hday ⊢
    simp only [daysInMonth] at hday
    omega
  · have hmono := @daysBeforeMonth_mono d.year d.month 12 hmonth.1 (by omega) le_rfl
    omega

theorem toOrdinal_lt (h : d.year < e.year ∨ d.year = e.year ∧
    (d.month < e.month ∨ d.month = e.month ∧ d.day < e.day)) : d.toOrdinal < e.toOrdinal := by
  have hd := d.ordinal_bounds
  have he := e.ordinal_bounds
  unfold Date.toOrdinal
  rcases h with hyear | ⟨hyear, hmonth | ⟨hmonth, hday⟩⟩
  · have hsucc := daysBeforeYear_succ d.year_range.1
    have hmono := daysBeforeYear_mono (Nat.le_add_left 1 d.year) (Nat.succ_le_of_lt hyear)
    omega
  · have hmono := @daysBeforeMonth_mono d.year _ _ d.month_range.1 hmonth e.month_range.2
    have hrange := d.day_range.2
    rw [← hyear]
    omega
  · rw [hyear, hmonth]
    omega

theorem Moment.timeOfDay_lt (m : Moment) : m.timeOfDay < dayLength := by
  have htime := m.time_range
  unfold Moment.timeOfDay dayLength
  omega

theorem instant_lt {a b : Moment} (h : a < b) : a.instant < b.instant := by
  have ha := a.time_range
  have hb := b.time_range
  have hatime := a.timeOfDay_lt
  simp only [Moment.lt_def, Moment.fields, List.cons_lt_cons_iff, lt_irrefl, and_false,
    or_false] at h
  by_cases hdate : a.year = b.year ∧ a.month = b.month ∧ a.day = b.day
  · have hordinal : a.toOrdinal = b.toOrdinal := by
      unfold Date.toOrdinal
      rw [hdate.1, hdate.2.1, hdate.2.2]
    unfold Moment.instant
    rw [hordinal]
    have htime : a.timeOfDay < b.timeOfDay := by
      unfold Moment.timeOfDay
      omega
    omega
  · have hordinal : a.toOrdinal < b.toOrdinal := by
      apply toOrdinal_lt
      omega
    unfold Moment.instant
    unfold dayLength at *
    omega

theorem instant_lt_iff {a b : Moment} : a.instant < b.instant ↔ a < b := by
  refine ⟨?_, instant_lt⟩
  intro h
  rcases lt_trichotomy a.fields b.fields with hlt | heq | hgt
  · exact hlt
  · rw [Moment.fields_injective heq] at h
    exact absurd h (lt_irrefl _)
  · exact absurd h (instant_lt (show b < a from hgt)).not_gt

theorem next_toOrdinal {day : Date} (h : d.next = some day) : day.toOrdinal = d.toOrdinal + 1 := by
  have hmonth := d.month_range
  have hday := d.day_range.2
  unfold Date.next at h
  split_ifs at h with hsame hnext hyear
  · obtain rfl := Option.some.inj h
    simp only [Date.toOrdinal]
    omega
  · obtain rfl := Option.some.inj h
    have hsucc := @daysBeforeMonth_succ d.year d.month hmonth.1 hnext
    simp only [Date.toOrdinal, hsucc]
    omega
  · obtain rfl := Option.some.inj h
    have hlast : d.month = 12 := by omega
    have hsucc := daysBeforeYear_succ d.year_range.1
    have hfirst : daysBeforeMonth (d.year + 1) 1 = 0 := rfl
    rw [hlast] at hsame hday
    simp only [Date.toOrdinal, hsucc, hfirst, hlast, daysInMonth] at hsame hday ⊢
    omega

theorem previous_toOrdinal {day : Date} (h : d.previous = some day) :
    day.toOrdinal + 1 = d.toOrdinal := by
  have hmonth := d.month_range
  have hday := d.day_range
  unfold Date.previous at h
  split_ifs at h with hsame hprevious hyear
  · obtain rfl := Option.some.inj h
    simp only [Date.toOrdinal]
    omega
  · obtain rfl := Option.some.inj h
    obtain ⟨k, hk⟩ := Nat.exists_eq_add_of_le' hmonth.1
    have hsucc := @daysBeforeMonth_succ d.year k (by omega) (by omega)
    simp only [Date.toOrdinal, hk, Nat.add_sub_cancel, hsucc]
    omega
  · obtain rfl := Option.some.inj h
    obtain ⟨k, hk⟩ := Nat.exists_eq_add_of_le' d.year_range.1
    have hsucc := @daysBeforeYear_succ k (by omega)
    have hfirst : daysBeforeMonth (k + 1) 1 = 0 := rfl
    have hlast : d.month = 1 := by omega
    simp only [Date.toOrdinal, hk, hlast, Nat.add_sub_cancel, hsucc, hfirst]
    omega

theorem next_eq_none (h : d.next = none) : d.toOrdinal = 3652059 := by
  have hday := d.day_range
  unfold Date.next at h
  split_ifs at h with hsame hnext hyear
  have hlast : d.month = 12 := by
    have hmonth := d.month_range
    omega
  have hend : d.year = 9999 := by
    have hyears := d.year_range
    omega
  rw [hlast, hend] at hsame hday
  have hdays : daysInMonth 9999 12 = 31 := rfl
  have hordinal : daysBeforeYear 9999 + daysBeforeMonth 9999 12 = 3652028 := rfl
  rw [Date.toOrdinal, hlast, hend, hordinal]
  omega

theorem previous_eq_none (h : d.previous = none) : d.toOrdinal = 1 := by
  unfold Date.previous at h
  split_ifs at h with hsame hprevious hyear
  have hday : d.day = 1 := Nat.le_antisymm (not_lt.mp hsame) d.day_range.1
  have hmonth : d.month = 1 := Nat.le_antisymm (not_lt.mp hprevious) d.month_range.1
  have hstart : d.year = 1 := Nat.le_antisymm (not_lt.mp hyear) d.year_range.1
  rw [Date.toOrdinal, hday, hmonth, hstart]
  rfl

theorem instant_at (d : Date) {time : Nat} (h : time < dayLength) :
    (d.at time h).instant = d.toOrdinal * dayLength + time := by
  have htime : (d.at time h).timeOfDay = time := by
    simp only [Moment.timeOfDay, Date.at]
    omega
  rw [Moment.instant, htime]
  rfl

theorem ensureUtc_instant {d : Datetime} (h : d.InCalendar) :
    ∃ m, ensureUtc d = some m ∧ (m.instant : Int) = d.instant := by
  obtain ⟨hstart, hend⟩ := h
  have htime := d.moment.timeOfDay_lt
  cases hoffset : d.offset with
  | none =>
    exact ⟨d.moment, ensureUtc_utc (.inl hoffset), by simp [Datetime.instant, hoffset]⟩
  | some o =>
    have hrange := d.offset_range o hoffset
    have hinstant : d.instant = d.moment.toOrdinal * dayLength + d.moment.timeOfDay - o := by
      simp [Datetime.instant, hoffset, Moment.instant]
    rw [hinstant] at hstart hend ⊢
    unfold ensureUtc
    split
    · rename_i hnone
      rw [hnone] at hoffset
      cases hoffset
    · rename_i o' ho'
      obtain rfl : o' = o := Option.some.inj (ho'.symm.trans hoffset)
      split_ifs with hzero hneg hlt
      · exact ⟨_, rfl, by simp [Moment.instant, hzero]⟩
      · cases hprevious : d.moment.previous with
        | none =>
          rw [previous_eq_none hprevious] at hstart
          omega
        | some day =>
          refine ⟨_, rfl, ?_⟩
          have hordinal := previous_toOrdinal hprevious
          rw [instant_at, ← hordinal]
          unfold dayLength at *
          omega
      · refine ⟨_, rfl, ?_⟩
        rw [instant_at]
        omega
      · cases hnext : d.moment.next with
        | none =>
          rw [next_eq_none hnext] at hend
          unfold dayLength at *
          omega
        | some day =>
          refine ⟨_, rfl, ?_⟩
          have hordinal := next_toOrdinal hnext
          rw [instant_at, hordinal]
          unfold dayLength at *
          omega

def digitsValue (ds : List Char) : Nat := ds.foldl (fun n c => n * 10 + (c.toNat - 48)) 0

/-- A number of so many digits, and what follows it. -/
def readDigits (width : Nat) (text : List Char) : Option (Nat × List Char) :=
  if (text.take width).length = width ∧ (text.take width).all Char.isDigit then
    some (digitsValue (text.take width), text.drop width)
  else none

def expect (c : Char) : List Char → Option (List Char)
  | d :: text => if d = c then some text else none
  | [] => none

/-- A fraction of a second, of which six digits count. -/
def readFraction (text : List Char) : Option (Nat × List Char) :=
  let ds := text.takeWhile Char.isDigit
  if ds = [] then none
  else some (digitsValue ((ds ++ List.replicate 6 '0').take 6), text.dropWhile Char.isDigit)

/-- `HH[:MM[:SS[.ffffff]]]`, with what follows it. -/
def readTime (text : List Char) : Option ((Nat × Nat × Nat × Nat) × List Char) := do
  let (hour, text) ← readDigits 2 text
  match expect ':' text with
  | none => return ((hour, 0, 0, 0), text)
  | some text =>
      let (minute, text) ← readDigits 2 text
      match expect ':' text with
      | none => return ((hour, minute, 0, 0), text)
      | some text =>
          let (second, text) ← readDigits 2 text
          match expect '.' text <|> expect ',' text with
          | none => return ((hour, minute, second, 0), text)
          | some text =>
              let (microsecond, text) ← readFraction text
              return ((hour, minute, second, microsecond), text)

/-- Nothing, `Z`, or a signed time of less than a day. -/
def readOffset : List Char → Option (Option Int)
  | [] => some none
  | ['Z'] => some (some 0)
  | sign :: text => do
      let ((hour, minute, second, microsecond), rest) ← readTime text
      if rest = [] ∧ hour < 24 ∧ minute < 60 ∧ second < 60 then
        let shift : Int := ((hour * 60 + minute) * 60 + second) * 1000000 + microsecond
        if sign = '+' then return some shift
        else if sign = '-' then return some (-shift)
        else none
      else none

def moment? (year month day : Nat) (time : Nat × Nat × Nat × Nat) : Option Moment :=
  if h : (1 ≤ year ∧ year ≤ 9999) ∧ (1 ≤ month ∧ month ≤ 12) ∧
      (1 ≤ day ∧ day ≤ daysInMonth year month) ∧
      time.1 < 24 ∧ time.2.1 < 60 ∧ time.2.2.1 < 60 ∧ time.2.2.2 < 1000000 then
    some { year := year, month := month, day := day, hour := time.1, minute := time.2.1
           second := time.2.2.1, microsecond := time.2.2.2
           year_range := h.1, month_range := h.2.1, day_range := h.2.2.1, time_range := h.2.2.2 }
  else none

def datetime? (moment : Moment) (offset : Option Int) : Option Datetime :=
  if h : ∀ o ∈ offset, o.natAbs < dayLength then
    some { moment := moment, offset := offset, offset_range := fun o ho => h o ho }
  else none

/-- `datetime.fromisoformat` for texts in the extended format. -/
def fromisoformat (text : List Char) : Option Datetime := do
  let (year, text) ← readDigits 4 text
  let (month, text) ← readDigits 2 (← expect '-' text)
  let (day, text) ← readDigits 2 (← expect '-' text)
  match text with
  | [] => datetime? (← moment? year month day (0, 0, 0, 0)) none
  | _ :: text =>
      let (time, text) ← readTime text
      let offset ← readOffset text
      datetime? (← moment? year month day time) offset

/-- `format_datetime`. -/
def formatDatetime (d : Datetime) : Option (List Char) := (ensureUtc d).map isoformat

/-- `parse_datetime` of a text. -/
def parseDatetime (text : List Char) : Option Moment :=
  (fromisoformat (text.flatMap fun c => if c = 'Z' then zulu else [c])).bind ensureUtc

theorem pad_isDigit (width n : Nat) : (pad width n).all Char.isDigit = true := by
  have hdigit : ∀ k : Fin 10, k.val.digitChar.isDigit = true := by decide
  induction width generalizing n with
  | zero => rfl
  | succ width ih => simp [pad, ih, hdigit ⟨n % 10, by omega⟩]

theorem digitsValue_pad {width n : Nat} (h : n < 10 ^ width) : digitsValue (pad width n) = n := by
  have hdigit : ∀ k : Fin 10, k.val.digitChar.toNat - 48 = k.val := by decide
  induction width generalizing n with
  | zero =>
    rw [pow_zero, Nat.lt_one_iff] at h
    rw [h]
    rfl
  | succ width ih =>
    rw [pow_succ] at h
    have hfirst := ih (n := n / 10) (by omega)
    have hlast := hdigit ⟨n % 10, by omega⟩
    rw [digitsValue] at hfirst
    rw [pad, digitsValue, List.foldl_append, hfirst]
    simp only [List.foldl_cons, List.foldl_nil] at hlast ⊢
    omega

theorem readDigits_pad {width n : Nat} (h : n < 10 ^ width) (text : List Char) :
    readDigits width (pad width n ++ text) = some (n, text) := by
  have htake : (pad width n ++ text).take width = pad width n :=
    List.take_left' (length_pad width n)
  have hdrop : (pad width n ++ text).drop width = text := List.drop_left' (length_pad width n)
  rw [readDigits, htake, hdrop, length_pad, pad_isDigit, digitsValue_pad h]
  simp

theorem readFraction_pad {n : Nat} (h : n < 1000000) :
    readFraction (pad 6 n ++ zulu) = some (n, zulu) := by
  have hdigits := List.all_eq_true.mp (pad_isDigit 6 n)
  have htake : (pad 6 n ++ zulu).takeWhile Char.isDigit = pad 6 n := by
    rw [List.takeWhile_append_of_pos hdigits]
    simp [zulu]
  have hdrop : (pad 6 n ++ zulu).dropWhile Char.isDigit = zulu := by
    rw [List.dropWhile_append_of_pos hdigits]
    simp [zulu]
  have hne : pad 6 n ≠ [] := List.ne_nil_of_length_pos (by rw [length_pad]; omega)
  have hsix : (pad 6 n ++ List.replicate 6 '0').take 6 = pad 6 n :=
    List.take_left' (length_pad 6 n)
  simp only [readFraction, htake, hdrop, hne, if_false, hsix,
    digitsValue_pad (show n < 10 ^ 6 from h)]

theorem readTime_isoformat (m : Moment) :
    readTime (pad 2 m.hour ++ ':' :: (pad 2 m.minute ++ ':' :: (pad 2 m.second ++
      (fraction m.microsecond ++ zulu)))) =
        some ((m.hour, m.minute, m.second, m.microsecond), zulu) := by
  have ⟨hhour, hminute, hsecond, hmicrosecond⟩ := m.time_range
  have hcolon (text : List Char) : expect ':' (':' :: text) = some text := rfl
  unfold readTime fraction
  rw [readDigits_pad (by omega)]
  dsimp only [Option.bind_eq_bind, Option.bind_some]
  rw [hcolon]
  dsimp only
  rw [readDigits_pad (by omega)]
  dsimp only [Option.bind_some]
  rw [hcolon]
  dsimp only
  rw [readDigits_pad (by omega)]
  dsimp only [Option.bind_some]
  split_ifs with hzero
  · rw [hzero]
    rfl
  · have hpoint : expect '.' ('.' :: pad 6 m.microsecond ++ zulu) =
        some (pad 6 m.microsecond ++ zulu) := rfl
    rw [hpoint]
    dsimp only [Option.orElse_eq_orElse, Option.orElse_some]
    rw [readFraction_pad hmicrosecond]
    rfl

theorem fromisoformat_isoformat (m : Moment) : fromisoformat (isoformat m) =
    some { moment := m, offset := some 0, offset_range := by decide } := by
  have hday := m.day_le
  have hmonth := m.month_range
  have hyear := m.year_range
  have hmoment : moment? m.year m.month m.day (m.hour, m.minute, m.second, m.microsecond) =
      some m := by
    rw [moment?, dif_pos ⟨m.year_range, m.month_range, m.day_range, m.time_range⟩]
  have hoffset : readOffset zulu = some (some 0) := by decide
  unfold fromisoformat isoformat
  rw [readDigits_pad (by omega)]
  dsimp only [Option.bind_eq_bind, Option.bind_some, expect]
  rw [if_pos rfl]
  dsimp only [Option.bind_some]
  rw [readDigits_pad (by omega)]
  dsimp only [Option.bind_some]
  rw [if_pos rfl]
  dsimp only [Option.bind_some]
  rw [readDigits_pad (by omega)]
  dsimp only [Option.bind_some]
  rw [readTime_isoformat]
  dsimp only [Option.bind_some]
  rw [hoffset, hmoment]
  rfl

theorem parseDatetime_isoformat (m : Moment) : parseDatetime (isoformat m) = some m := by
  have hplain : (isoformat m).flatMap (fun c => if c = 'Z' then zulu else [c]) = isoformat m := by
    have hz := abbreviation_not_mem_isoformat m
    generalize isoformat m = text at hz ⊢
    induction text with
    | nil => rfl
    | cons c text ih =>
      rw [List.mem_cons, not_or] at hz
      rw [List.flatMap_cons, if_neg (Ne.symm hz.1), ih hz.2]
      rfl
  rw [parseDatetime, hplain, fromisoformat_isoformat, Option.bind_some, ensureUtc_utc (.inr rfl)]

/-- The texts of two datetimes of the calendar are in the order of their instants, and the text
of each is read as its instant. -/
theorem stored_timestamps_sort {a b : Datetime} (ha : a.InCalendar) (hb : b.InCalendar) :
    ∃ s t, formatDatetime a = some s ∧ formatDatetime b = some t ∧
      (s < t ↔ a.instant < b.instant) ∧ (s = t ↔ a.instant = b.instant) ∧
      ∃ m, parseDatetime s = some m ∧ (m.instant : Int) = a.instant := by
  obtain ⟨m, hm, hma⟩ := ensureUtc_instant ha
  obtain ⟨n, hn, hnb⟩ := ensureUtc_instant hb
  have hless : isoformat m < isoformat n ↔ a.instant < b.instant := by
    rw [isoformat_lt_iff, ← instant_lt_iff, ← hma, ← hnb, Int.ofNat_lt]
  have hgreater : isoformat n < isoformat m ↔ b.instant < a.instant := by
    rw [isoformat_lt_iff, ← instant_lt_iff, ← hma, ← hnb, Int.ofNat_lt]
  refine ⟨isoformat m, isoformat n, by rw [formatDatetime, hm]; rfl,
    by rw [formatDatetime, hn]; rfl, hless, ?_, m, parseDatetime_isoformat m, hma⟩
  rw [le_antisymm_iff, ← not_lt, ← not_lt, hless, hgreater]
  omega

/-- Half past one in Berlin and a microsecond past midnight in UTC. -/
theorem stored_timestamps_sort_midnight : let berlin : Datetime :=
      { moment := { year := 2026, month := 1, day := 1, hour := 1, minute := 30 }
        offset := some 3600000000, offset_range := by decide }
    let utc : Datetime :=
      { moment := { year := 2026, month := 1, day := 1, microsecond := 1 } }
    ∃ s t, formatDatetime berlin = some s ∧ formatDatetime utc = some t ∧
      (s < t ↔ berlin.instant < utc.instant) ∧ (s = t ↔ berlin.instant = utc.instant) ∧
      ∃ m, parseDatetime s = some m ∧ (m.instant : Int) = berlin.instant :=
  stored_timestamps_sort (by unfold Datetime.InCalendar; decide +kernel)
    (by unfold Datetime.InCalendar; decide +kernel)

end Cruxible.Timestamps
