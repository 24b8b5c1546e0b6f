import Polymind.Lib.Calendar
import Mathlib.Algebra.Order.Floor.Ring
import Mathlib.Data.Int.ConditionallyCompleteOrder
import Mathlib.Data.Rat.Floor
import Mathlib.Tactic.Linarith

/-!
# Clock readings and their dates

A clock reading is a number of seconds since `1970-01-01`, a `datetime` a number of microseconds since
`0001-01-01`.

* `fromTimestamp`, `timestamp`: the conversions, in UTC;
* `startOfDay`, `startOfMonth`: the `replace` of the lower fields of a `datetime`;
* `periodStart_mono`: the day and the month of a later reading do not start earlier.
-/

namespace Polymind

namespace Calendar

/-! ### Rounding -/

/-- The nearest integer, ties to even. -/
def roundHalfEven (x : ℚ) : ℤ :=
  let n := ⌊x⌋
  let r := x - n
  if r < 1 / 2 then n else if 1 / 2 < r then n + 1 else if n % 2 = 0 then n else n + 1

theorem floor_le_roundHalfEven (x : ℚ) : ⌊x⌋ ≤ roundHalfEven x := by
  unfold roundHalfEven
  simp only
  split
  · exact le_refl _
  · split
    · omega
    · split <;> omega

theorem roundHalfEven_le (x : ℚ) : roundHalfEven x ≤ ⌊x⌋ + 1 := by
  unfold roundHalfEven
  simp only
  split
  · omega
  · split
    · omega
    · split <;> omega

theorem roundHalfEven_mono : Monotone roundHalfEven := by
  intro x y hxy
  rcases lt_or_eq_of_le (Int.floor_mono hxy) with hlt | heq
  · -- the integer above the one is not above the integer below the other
    have hx := roundHalfEven_le x
    have hy := floor_le_roundHalfEven y
    omega
  · unfold roundHalfEven
    simp only
    rw [← heq]
    have hr : x - (⌊x⌋ : ℤ) ≤ y - (⌊x⌋ : ℤ) := by linarith
    split
    · split
      · exact le_refl _
      · split
        · omega
        · split <;> omega
    · next h1 =>
      rw [if_neg (show ¬y - (⌊x⌋ : ℤ) < 1 / 2 by linarith)]
      split
      · next h2 =>
        rw [if_pos (show 1 / 2 < y - (⌊x⌋ : ℤ) by linarith)]
      · split
        · split
          · omega
          · exact le_refl _
        · split
          · exact le_refl _
          · exact le_refl _

/-! ### Conversions -/

/-- `1970-01-01`, in microseconds. -/
def epoch : Nat := 62135596800000000

/-- `datetime.fromtimestamp(t, timezone.utc)`; it raises outside the years 1 to 9999. -/
def fromTimestamp (t : ℚ) : Option Nat :=
  let micros := roundHalfEven (t * 1000000) + epoch
  if 0 ≤ micros ∧ micros ≤ 315537897599999999 then some micros.toNat else none

/-- `date.timestamp()`. -/
def timestamp (date : Nat) : ℚ := ((date : ℤ) - (epoch : ℤ) : ℤ) / 1000000

/-- `date.replace(hour=0, minute=0, second=0, microsecond=0)`. -/
def startOfDay (date : Nat) : Nat := date / 86400000000 * 86400000000

/-- The first day of the month of a day. -/
def firstOfMonth (day : Nat) : Nat := day + 1 - (ord2ymd day).2.2

/-- `date.replace(day=1, hour=0, minute=0, second=0, microsecond=0)`. -/
def startOfMonth (date : Nat) : Nat := firstOfMonth (date / 86400000000) * 86400000000

theorem fromTimestamp_mono {s t : ℚ} {c d : Nat} (hst : s ≤ t) (hs : fromTimestamp s = some c)
    (ht : fromTimestamp t = some d) : c ≤ d := by
  unfold fromTimestamp at hs ht
  simp only at hs ht
  split at hs
  · split at ht
    · have hround : roundHalfEven (s * 1000000) ≤ roundHalfEven (t * 1000000) :=
        roundHalfEven_mono (by linarith)
      have hc := Option.some.inj hs
      have hd := Option.some.inj ht
      omega
    · cases ht
  · cases hs

theorem timestamp_mono : Monotone timestamp := by
  intro c d h
  unfold timestamp
  have hle : ((c : ℤ) - (epoch : ℤ) : ℤ) ≤ (d : ℤ) - (epoch : ℤ) := by omega
  have hcast : (((c : ℤ) - (epoch : ℤ) : ℤ) : ℚ) ≤ (((d : ℤ) - (epoch : ℤ) : ℤ) : ℚ) := by
    exact_mod_cast hle
  linarith

theorem startOfDay_mono : Monotone startOfDay := by
  intro c d h
  exact Nat.mul_le_mul_right _ (Nat.div_le_div_right h)

/-! ### Months -/

/-- A month has at most 31 days. -/
theorem dayOfMonth_le (n : Nat) : (ord2ymd n).2.2 ≤ 31 := by
  have hmonth : ∀ leap : Bool, ∀ d < 365, (monthDay leap d).2 ≤ 31 := by decide +kernel
  unfold ord2ymd
  simp only
  split
  · exact le_refl _
  · exact hmonth _ _ (by omega)

/-- The next day has the next number in its month or a smaller one. -/
theorem dayOfMonth_succ_le (n : Nat) : (ord2ymd (n + 1)).2.2 ≤ (ord2ymd n).2.2 + 1 := by
  have hbound := dayOfMonth_le (n + 1)
  have hmonth : ∀ leap : Bool, ∀ d < 365, (monthDay leap (d + 1)).2 ≤ (monthDay leap d).2 + 1 := by
    decide +kernel
  have hlast : ∀ leap : Bool, 30 ≤ (monthDay leap 364).2 := by decide +kernel
  -- the places of the day in its 400, 100 and 4 years and in its year
  generalize ha : n / 146097 = a
  generalize hb : n % 146097 / 36524 = b
  generalize hc : n % 146097 % 36524 / 1461 = c
  generalize he : n % 146097 % 36524 % 1461 / 365 = e
  generalize hd : n % 146097 % 36524 % 1461 % 365 = d
  have hn : n = 146097 * a + 36524 * b + 1461 * c + 365 * e + d := by omega
  have hbounds : b ≤ 4 ∧ c ≤ 24 ∧ e ≤ 4 ∧ d < 365 := by omega
  have hstep : (ord2ymd n).2.2 = if e = 4 ∨ b = 4 then 31 else
      (monthDay (decide (e = 3) && (decide (c ≠ 24) || decide (b = 3))) d).2 := by
    unfold ord2ymd
    simp only [ha, hb, hc, he, hd, Bool.or_eq_true, decide_eq_true_eq]
    split <;> rfl
  rw [hstep]
  by_cases hedge : e = 4 ∨ b = 4
  · rw [if_pos hedge]
    omega
  · rw [if_neg hedge]
    rcases Nat.lt_or_ge (d + 1) 365 with hlt | hge
    · -- the same year
      have ha' : (n + 1) / 146097 = a := by omega
      have hb' : (n + 1) % 146097 / 36524 = b := by omega
      have hc' : (n + 1) % 146097 % 36524 / 1461 = c := by omega
      have he' : (n + 1) % 146097 % 36524 % 1461 / 365 = e := by omega
      have hd' : (n + 1) % 146097 % 36524 % 1461 % 365 = d + 1 := by omega
      unfold ord2ymd
      simp only [hb', hc', he', hd', Bool.or_eq_true, decide_eq_true_eq]
      rw [if_neg hedge]
      exact hmonth _ d (by omega)
    · -- the last day but one of a leap year, or the last day of another
      obtain rfl : d = 364 := by omega
      have := hlast (decide (e = 3) && (decide (c ≠ 24) || decide (b = 3)))
      omega

theorem firstOfMonth_mono : Monotone firstOfMonth := by
  apply monotone_nat_of_le_succ
  intro n
  have := dayOfMonth_succ_le n
  unfold firstOfMonth
  omega

theorem startOfMonth_mono : Monotone startOfMonth := by
  intro c d h
  exact Nat.mul_le_mul_right _ (firstOfMonth_mono (Nat.div_le_div_right h))

/-- When the day of a clock reading starts. -/
def dayStart (t : ℚ) : Option ℚ := (fromTimestamp t).map fun date => timestamp (startOfDay date)

/-- When the month of a clock reading starts. -/
def monthStart (t : ℚ) : Option ℚ := (fromTimestamp t).map fun date => timestamp (startOfMonth date)

/-- The period of a later reading does not start earlier. -/
theorem periodStart_mono {start : Nat → Nat} (hstart : Monotone start) {s t c d : ℚ} (hst : s ≤ t)
    (hs : (fromTimestamp s).map (fun date => timestamp (start date)) = some c)
    (ht : (fromTimestamp t).map (fun date => timestamp (start date)) = some d) : c ≤ d := by
  obtain ⟨a, ha, rfl⟩ := Option.map_eq_some_iff.mp hs
  obtain ⟨b, hb, rfl⟩ := Option.map_eq_some_iff.mp ht
  exact timestamp_mono (hstart (fromTimestamp_mono hst ha hb))

/-- `2026-03-17T12:00:00`. -/
example : dayStart 1773748800 = some 1773705600 ∧ monthStart 1773748800 = some 1772323200 := by
  decide +kernel

end Calendar

end Polymind
