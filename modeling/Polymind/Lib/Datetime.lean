import Polymind.Lib.Calendar
import Mathlib.Order.Monotone.Basic

/-!
# Aware datetimes

`datetime.datetime` with its UTC offset: the shift to UTC, the text `isoformat(timespec='microseconds')`
writes and `fromisoformat`, which reads the texts `isoformat` writes.

* `ymd2ord_lt`: dates in order have days in order;
* `ord2ymd_valid`, `ord2ymd_ymd2ord`: `ord2ymd` and `ymd2ord` are inverse on the dates of a calendar;
* `ofWall_wall`: a datetime is made of its wall clock;
* `add_cases`, `astimezone_cases`: what a sum and the shift to UTC give.
-/

namespace Polymind

namespace Calendar

/-! ### Valid dates -/

def daysInMonth (leap : Bool) (month : Nat) : Nat :=
  ([0, 31, 28, 31, 30, 31, 30, 31, 31, 30, 31, 30, 31].getD month 0)
    + if month = 2 && leap then 1 else 0

/-- The checks of `date(year, month, day)`. -/
def validDate (date : Nat × Nat × Nat) : Bool :=
  1 ≤ date.1 && date.1 ≤ 9999 && 1 ≤ date.2.1 && date.2.1 ≤ 12 && 1 ≤ date.2.2
    && date.2.2 ≤ daysInMonth (isLeap date.1) date.2.1

theorem validDate_iff {year month day : Nat} : validDate (year, month, day) = true ↔
    (1 ≤ year ∧ year ≤ 9999) ∧ (1 ≤ month ∧ month ≤ 12) ∧
      1 ≤ day ∧ day ≤ daysInMonth (isLeap year) month := by
  simp only [validDate, Bool.and_eq_true, decide_eq_true_eq, and_assoc]

/-- A later month starts after the days of an earlier one. -/
theorem daysBeforeMonth_add_le (leap : Bool) {m n : Nat} (hm : 1 ≤ m) (hmn : m < n) (hn : n ≤ 13) :
    daysBeforeMonth leap m + daysInMonth leap m ≤
      if n = 13 then 365 + leap.toNat else daysBeforeMonth leap n := by
  have hall : ∀ leap : Bool, ∀ n ≤ 13, ∀ m < n, 1 ≤ m →
      daysBeforeMonth leap m + daysInMonth leap m ≤
        if n = 13 then 365 + leap.toNat else daysBeforeMonth leap n := by decide +kernel
  exact hall leap n hn m hmn hm

/-- The days of a year. -/
theorem daysBeforeYear_succ {year : Nat} (h : 1 ≤ year) :
    daysBeforeYear (year + 1) = daysBeforeYear year + 365 + (isLeap year).toNat := by
  obtain ⟨y, rfl⟩ : ∃ y, year = y + 1 := ⟨year - 1, by omega⟩
  have h4 : (y + 1) / 4 = y / 4 + if (y + 1) % 4 = 0 then 1 else 0 := by split <;> omega
  have h100 : (y + 1) / 100 = y / 100 + if (y + 1) % 100 = 0 then 1 else 0 := by split <;> omega
  have h400 : (y + 1) / 400 = y / 400 + if (y + 1) % 400 = 0 then 1 else 0 := by split <;> omega
  have hle : y / 100 ≤ y := Nat.div_le_self y 100
  have hleap : (isLeap (y + 1)).toNat
      = if (y + 1) % 4 = 0 ∧ ((y + 1) % 100 ≠ 0 ∨ (y + 1) % 400 = 0) then 1 else 0 := by
    unfold isLeap
    split
    · next h => simp [h]
    · next h => simpa using h
  unfold daysBeforeYear
  rw [Nat.add_sub_cancel, Nat.add_sub_cancel, h4, h100, h400, hleap]
  -- a multiple of 400 is one of 100, and that one of 4
  split_ifs <;> omega

theorem daysBeforeYear_mono : Monotone daysBeforeYear := by
  apply monotone_nat_of_le_succ
  intro year
  cases year with
  | zero => exact Nat.le_refl _
  | succ year =>
    have hsucc : daysBeforeYear (year + 1 + 1) = _ := daysBeforeYear_succ (Nat.succ_pos year)
    rw [hsucc, Nat.add_assoc]
    exact Nat.le_add_right _ _

theorem ymd2ord_pos {date : Nat × Nat × Nat} (h : validDate date = true) : 1 ≤ ymd2ord date := by
  have hday : 1 ≤ date.2.2 := (validDate_iff.mp h).2.2.1
  unfold ymd2ord
  omega

/-- A day of a year comes before the next year. -/
theorem ymd2ord_le {date : Nat × Nat × Nat} (h : validDate date = true) :
    ymd2ord date ≤ daysBeforeYear (date.1 + 1) := by
  obtain ⟨year, month, day⟩ := date
  obtain ⟨⟨hyear, -⟩, ⟨hmonth, hmonth'⟩, -, hday⟩ := validDate_iff.mp h
  have hend := daysBeforeMonth_add_le (isLeap year) hmonth (show month < 13 by omega) (Nat.le_refl 13)
  rw [if_pos rfl] at hend
  unfold ymd2ord
  rw [daysBeforeYear_succ hyear]
  dsimp only
  omega

/-- Dates in order have days in order. -/
theorem ymd2ord_lt {y m d y' m' d' : Nat} (h : validDate (y, m, d) = true)
    (h' : validDate (y', m', d') = true) (hlt : y < y' ∨ y = y' ∧ (m < m' ∨ m = m' ∧ d < d')) :
    ymd2ord (y, m, d) < ymd2ord (y', m', d') := by
  obtain ⟨-, ⟨hmonth, -⟩, -, hday⟩ := validDate_iff.mp h
  obtain ⟨-, ⟨-, hmonth'⟩, hday', -⟩ := validDate_iff.mp h'
  rcases hlt with hyear | ⟨rfl, hlt⟩
  · have hend := ymd2ord_le h
    have hstart : daysBeforeYear (y + 1) ≤ daysBeforeYear y' := daysBeforeYear_mono hyear
    unfold ymd2ord at hend ⊢
    dsimp only at hend ⊢
    omega
  · unfold ymd2ord
    dsimp only
    rcases hlt with hlt | ⟨rfl, hlt⟩
    · have hend := daysBeforeMonth_add_le (isLeap y) hmonth hlt (show m' ≤ 13 by omega)
      rw [if_neg (show m' ≠ 13 by omega)] at hend
      omega
    · omega

theorem ymd2ord_injective {date date' : Nat × Nat × Nat} (h : validDate date = true)
    (h' : validDate date' = true) (heq : ymd2ord date = ymd2ord date') : date = date' := by
  obtain ⟨y, m, d⟩ := date
  obtain ⟨y', m', d'⟩ := date'
  by_contra hne
  have hlex : (y < y' ∨ y = y' ∧ (m < m' ∨ m = m' ∧ d < d')) ∨
      (y' < y ∨ y' = y ∧ (m' < m ∨ m' = m ∧ d' < d)) := by
    simp only [Prod.mk.injEq] at hne
    omega
  rcases hlex with hlt | hlt
  · have := ymd2ord_lt h h' hlt
    omega
  · have := ymd2ord_lt h' h hlt
    omega

theorem monthDay_valid (leap : Bool) {n : Nat} (h : n < 365) :
    (1 ≤ (monthDay leap n).1 ∧ (monthDay leap n).1 ≤ 12) ∧
      1 ≤ (monthDay leap n).2 ∧ (monthDay leap n).2 ≤ daysInMonth leap (monthDay leap n).1 := by
  have hall : ∀ leap : Bool, ∀ n < 365, (1 ≤ (monthDay leap n).1 ∧ (monthDay leap n).1 ≤ 12) ∧
      1 ≤ (monthDay leap n).2 ∧ (monthDay leap n).2 ≤ daysInMonth leap (monthDay leap n).1 := by
    decide +kernel
  exact hall leap n h

/-- `ord2ymd` gives dates, of the years 1 to 9999. -/
theorem ord2ymd_valid {n : Nat} (hn : n ≤ 3652058) : validDate (ord2ymd n) = true := by
  have hord := ordinal_ord2ymd n
  have hrest : 1 ≤ (ord2ymd n).1 ∧ (1 ≤ (ord2ymd n).2.1 ∧ (ord2ymd n).2.1 ≤ 12) ∧
      1 ≤ (ord2ymd n).2.2 ∧
      (ord2ymd n).2.2 ≤ daysInMonth (isLeap (ord2ymd n).1) (ord2ymd n).2.1 := by
    unfold ord2ymd
    dsimp only
    generalize ha : n / 146097 = a
    generalize hb : n % 146097 / 36524 = b
    generalize hc : n % 146097 % 36524 / 1461 = c
    generalize he : n % 146097 % 36524 % 1461 / 365 = e
    have hbounds : b ≤ 4 ∧ c ≤ 24 ∧ e ≤ 4 := by omega
    split
    · rename_i hlast
      simp only [Bool.or_eq_true, decide_eq_true_eq] at hlast
      dsimp only
      refine ⟨by omega, ⟨by decide, by decide⟩, by decide, ?_⟩
      cases isLeap (a * 400 + b * 100 + c * 4 + e + 1 - 1)
      · decide
      · decide
    · rename_i hlast
      simp only [Bool.or_eq_true, decide_eq_true_eq, not_or] at hlast
      refine ⟨by dsimp only; omega, ?_⟩
      dsimp only
      rw [isLeap_eq a (show b ≤ 3 by omega) hbounds.2.1 (show e ≤ 3 by omega)]
      exact monthDay_valid _ (by omega)
  obtain ⟨hyear, hmonth, hday⟩ := hrest
  rw [← Prod.mk.eta (p := ord2ymd n), ← Prod.mk.eta (p := (ord2ymd n).2)]
  refine validDate_iff.mpr ⟨⟨hyear, ?_⟩, hmonth, hday⟩
  -- the year 10000 starts later
  by_contra hlate
  have hstart : daysBeforeYear 10000 ≤ daysBeforeYear (ord2ymd n).1 :=
    daysBeforeYear_mono (show 10000 ≤ (ord2ymd n).1 by omega)
  have h10000 : daysBeforeYear 10000 = 3652059 := by decide
  unfold ymd2ord at hord
  omega

/-- The date of a day is the one with that day. -/
theorem ord2ymd_ymd2ord {date : Nat × Nat × Nat} (h : validDate date = true) :
    ord2ymd (ymd2ord date - 1) = date := by
  obtain ⟨y, m, d⟩ := date
  have hend : ymd2ord (y, m, d) ≤ daysBeforeYear (y + 1) := ymd2ord_le h
  obtain ⟨⟨-, hyear⟩, -, -⟩ := validDate_iff.mp h
  have hlast : daysBeforeYear (y + 1) ≤ 3652059 :=
    (daysBeforeYear_mono (show y + 1 ≤ 10000 by omega)).trans (by decide)
  have hpos := ymd2ord_pos h
  apply ymd2ord_injective (ord2ymd_valid (by omega)) h
  rw [ordinal_ord2ymd]
  omega

end Calendar

open Calendar

/-! ### Datetimes -/

/-- A `timedelta` of less than a day either way, in microseconds. -/
structure Offset where
  micros : Int
  gt : -86400000000 < micros
  lt : micros < 86400000000

/-- A `tzinfo`: `timezone.utc`, or another by what its `utcoffset` gives for the datetime. -/
inductive Tzinfo where
  | utc
  | other (utcoffset : Option Offset)

structure Datetime where
  date : Nat × Nat × Nat
  hour : Nat
  minute : Nat
  second : Nat
  microsecond : Nat
  tzinfo : Option Tzinfo
  date_valid : validDate date = true
  hour_lt : hour < 24
  minute_lt : minute < 60
  second_lt : second < 60
  microsecond_lt : microsecond < 1000000

namespace Datetime

/-- `value.utcoffset()`, in microseconds; `none` for a naive datetime. -/
def utcoffset (value : Datetime) : Option Int :=
  match value.tzinfo with
  | none => none
  | some .utc => some 0
  | some (.other offset) => offset.map Offset.micros

/-- The microseconds of the wall clock since `0001-01-01T00:00:00`. -/
def wall (value : Datetime) : Nat :=
  (ymd2ord value.date - 1) * 86400000000 + value.hour * 3600000000 + value.minute * 60000000
    + value.second * 1000000 + value.microsecond

/-- The instant of an aware datetime: microseconds since `0001-01-01T00:00:00` in UTC. -/
def instant (value : Datetime) : Option Int := value.utcoffset.map fun offset => value.wall - offset

/-- The last microsecond of the year 9999. -/
def maxWall : Nat := 315537897599999999

theorem day_le {n : Nat} (h : n ≤ maxWall) : n / 86400000000 ≤ 3652058 := by
  unfold maxWall at h
  omega

theorem clock_lt (n : Nat) : n % 86400000000 / 3600000000 < 24 ∧ n / 60000000 % 60 < 60 ∧
    n / 1000000 % 60 < 60 ∧ n % 1000000 < 1000000 := by omega

/-- The datetime of a wall clock, as `datetime.combine` makes it. -/
def ofWall (n : Nat) (h : n ≤ maxWall) (tzinfo : Option Tzinfo) : Datetime where
  date := ord2ymd (n / 86400000000)
  hour := n % 86400000000 / 3600000000
  minute := n / 60000000 % 60
  second := n / 1000000 % 60
  microsecond := n % 1000000
  tzinfo := tzinfo
  date_valid := ord2ymd_valid (day_le h)
  hour_lt := (clock_lt n).1
  minute_lt := (clock_lt n).2.1
  second_lt := (clock_lt n).2.2.1
  microsecond_lt := (clock_lt n).2.2.2

/-- `value + delta`, for a `delta` in microseconds; `none` for `OverflowError`. -/
def add (value : Datetime) (delta : Int) : Option Datetime :=
  let n := value.wall + delta
  if h : 0 ≤ n ∧ n.toNat ≤ maxWall then some (ofWall n.toNat h.2 value.tzinfo) else none

/-- `value.astimezone(timezone.utc)`, of a datetime with this offset. -/
def astimezone (value : Datetime) (offset : Int) : Option Datetime :=
  match value.tzinfo with
  | some .utc => some value
  | _ => (value.add (-offset)).map fun shifted => { shifted with tzinfo := some .utc }

@[simp] theorem wall_ofWall {n : Nat} (h : n ≤ maxWall) (tzinfo : Option Tzinfo) :
    (ofWall n h tzinfo).wall = n := by
  unfold wall ofWall
  dsimp only
  rw [ordinal_ord2ymd, Nat.add_sub_cancel]
  omega

theorem wall_le (value : Datetime) : value.wall ≤ maxWall := by
  have hday := ymd2ord_le value.date_valid
  have hyear : value.date.1 ≤ 9999 := (validDate_iff.mp value.date_valid).1.2
  have hlast : daysBeforeYear (value.date.1 + 1) ≤ 3652059 :=
    (daysBeforeYear_mono (show value.date.1 + 1 ≤ 10000 by omega)).trans (by decide)
  have := value.hour_lt
  have := value.minute_lt
  have := value.second_lt
  have := value.microsecond_lt
  unfold wall maxWall
  omega

/-- A datetime is made of its wall clock. -/
theorem ofWall_wall (value : Datetime) :
    ofWall value.wall value.wall_le value.tzinfo = value := by
  have hday := ymd2ord_pos value.date_valid
  have := value.hour_lt
  have := value.minute_lt
  have := value.second_lt
  have := value.microsecond_lt
  have hdate : value.wall / 86400000000 = ymd2ord value.date - 1 := by
    unfold wall
    omega
  have hhour : value.wall % 86400000000 / 3600000000 = value.hour := by
    unfold wall
    omega
  have hminute : value.wall / 60000000 % 60 = value.minute := by
    unfold wall
    omega
  have hsecond : value.wall / 1000000 % 60 = value.second := by
    unfold wall
    omega
  have hmicro : value.wall % 1000000 = value.microsecond := by
    unfold wall
    omega
  unfold ofWall
  simp only [hdate, hhour, hminute, hsecond, hmicro, ord2ymd_ymd2ord value.date_valid]

/-! ### Arithmetic -/

theorem instant_utc {value : Datetime} (h : value.tzinfo = some .utc) :
    value.instant = some (value.wall : Int) := by
  unfold instant utcoffset
  rw [h]
  show some ((value.wall : Int) - 0) = _
  rw [Int.sub_zero]

/-- A sum that stays in the years 1 to 9999 moves the wall clock; another overflows. -/
theorem add_cases (value : Datetime) (delta : Int) :
    (value.add delta = none ∧ ¬(0 ≤ value.wall + delta ∧ value.wall + delta ≤ (maxWall : Int))) ∨
    ∃ later, value.add delta = some later ∧ later.tzinfo = value.tzinfo ∧
      (later.wall : Int) = value.wall + delta := by
  unfold add
  by_cases hrange : 0 ≤ value.wall + delta ∧ (value.wall + delta).toNat ≤ maxWall
  · right
    refine ⟨_, dif_pos hrange, rfl, ?_⟩
    rw [wall_ofWall]
    exact Int.toNat_of_nonneg hrange.1
  · left
    refine ⟨dif_neg hrange, ?_⟩
    intro h
    exact hrange ⟨h.1, by omega⟩

/-- The shift to UTC keeps the instant; it overflows when that is outside the years 1 to 9999. -/
theorem astimezone_cases {value : Datetime} {offset : Int} (h : value.utcoffset = some offset) :
    (value.astimezone offset = none ∧
      ¬(0 ≤ value.wall - offset ∧ value.wall - offset ≤ (maxWall : Int))) ∨
    ∃ shifted, value.astimezone offset = some shifted ∧ shifted.tzinfo = some .utc ∧
      (shifted.wall : Int) = value.wall - offset := by
  by_cases hutc : value.tzinfo = some .utc
  · right
    obtain rfl : (0 : Int) = offset := by
      unfold utcoffset at h
      rw [hutc] at h
      exact Option.some.inj h
    refine ⟨value, ?_, hutc, by rw [Int.sub_zero]⟩
    unfold astimezone
    rw [hutc]
  · have hshift : value.astimezone offset
        = (value.add (-offset)).map fun shifted => { shifted with tzinfo := some .utc } := by
      unfold astimezone
      split
      · next heq => exact absurd heq hutc
      · rfl
    rw [hshift]
    rcases add_cases value (-offset) with ⟨hnone, hrange⟩ | ⟨later, hlater, -, hwall⟩
    · left
      rw [hnone]
      exact ⟨rfl, hrange⟩
    · right
      rw [hlater]
      exact ⟨_, rfl, rfl, hwall⟩

end Datetime

end Polymind
