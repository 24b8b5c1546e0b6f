import Polymind.Lib.Datetime
import Polymind.Lib.Sorting
import Mathlib.Data.List.TakeWhile

/-!
# The texts of aware datetimes

`isoformat(timespec='microseconds')` and `fromisoformat`, which reads what `isoformat` writes.

* `keyLe_pad`: numbers of one width are ordered as their texts;
* `isoformatMicroseconds_mono`: so are datetimes in UTC;
* `fromisoformat_isoformatMicroseconds`: a datetime in UTC is read back from its text.
-/

namespace Polymind

open Json Calendar

/-! ### Numbers of one width -/

namespace Calendar

theorem length_pad {w n : Nat} (hw : 0 < w) (h : n < 10 ^ w) : (pad w n).length = w := by
  have hle : (Nat.toDigits 10 n).length ≤ w := (Nat.length_toDigits_le_iff (by decide) hw).mpr h
  rw [pad, List.length_append, List.length_replicate]
  omega

/-- The last digit of a padded number. -/
theorem pad_succ {w : Nat} (hw : 0 < w) (n : Nat) :
    pad (w + 1) n = pad w (n / 10) ++ [(n % 10).digitChar] := by
  unfold pad
  by_cases hn : n < 10
  · have hzero : n / 10 = 0 := by omega
    rw [hzero, Nat.mod_eq_of_lt hn, Nat.toDigits_of_lt_base hn, Nat.toDigits_zero]
    obtain ⟨k, rfl⟩ : ∃ k, w = k + 1 := ⟨w - 1, by omega⟩
    simp only [List.length_singleton, Nat.add_sub_cancel]
    rw [List.replicate_succ']
  · have hdigits : Nat.toDigits 10 n = Nat.toDigits 10 (n / 10) ++ [(n % 10).digitChar] :=
      Nat.toDigits_of_base_le (by decide) (by omega)
    rw [hdigits, List.length_append, List.length_singleton, Nat.add_sub_add_right, List.append_assoc]

end Calendar

/-- A smaller number of one width comes first, whatever follows. -/
theorem keyLe_pad {w m n : Nat} (hw : 0 < w) (hn : n < 10 ^ w) (hmn : m < n) (s t : Str) :
    keyLe (pad w m ++ s) (pad w n ++ t) = true := by
  have hdigit : ∀ {a b : Nat} (s t : Str), b < 10 → a < b →
      keyLe (a.digitChar :: s) (b.digitChar :: t) = true := by
    intro a b s t hb hab
    rw [keyLe_cons, Nat.toNat_digitChar_of_lt_ten hb, Nat.toNat_digitChar_of_lt_ten (hab.trans hb)]
    exact Or.inl (Nat.add_lt_add_left hab 48)
  induction w generalizing m n s t with
  | zero => exact absurd hw (lt_irrefl 0)
  | succ w ih =>
    rcases Nat.eq_zero_or_pos w with rfl | hw
    · -- one digit
      have hone : ∀ {k : Nat}, k < 10 → pad (0 + 1) k = [k.digitChar] := by
        intro k hk
        rw [pad, Nat.toDigits_of_lt_base hk]
        rfl
      rw [hone (show m < 10 by omega), hone (show n < 10 by omega)]
      exact hdigit s t (by omega) hmn
    · rw [pad_succ hw, pad_succ hw, List.append_assoc, List.append_assoc]
      have hpow : n / 10 < 10 ^ w := by
        rw [Nat.pow_succ] at hn
        omega
      rcases Nat.lt_or_eq_of_le (Nat.div_le_div_right (c := 10) hmn.le) with hlt | heq
      · exact ih hw hpow hlt _ _
      · rw [heq, keyLe_append_left]
        exact hdigit s t (by omega) (by omega)

/-- Two texts that start with numbers of one width. -/
theorem keyLe_pad_append {w m n : Nat} {s t : Str} (hw : 0 < w) (hn : n < 10 ^ w)
    (h : m < n ∨ m = n ∧ keyLe s t = true) : keyLe (pad w m ++ s) (pad w n ++ t) = true := by
  rcases h with hlt | ⟨rfl, h⟩
  · exact keyLe_pad hw hn hlt s t
  · rw [keyLe_append_left]
    exact h

namespace Datetime

/-! ### Writing -/

/-- `_format_offset`. -/
def formatOffset : Option Int → Str
  | none => []
  | some micros =>
    let n := micros.natAbs
    (if micros < 0 then '-' else '+') :: (pad 2 (n / 3600000000) ++ ':' ::
      (pad 2 (n / 60000000 % 60) ++ if n % 60000000 = 0 then [] else ':' ::
        (pad 2 (n / 1000000 % 60) ++ if n % 1000000 = 0 then [] else '.' :: pad 6 (n % 1000000))))

/-- `'%04d-%02d-%02d'`. -/
def formatDate (date : Nat × Nat × Nat) : Str :=
  pad 4 date.1 ++ '-' :: (pad 2 date.2.1 ++ '-' :: pad 2 date.2.2)

/-- `_format_time`, with `timespec='microseconds'`. -/
def formatTime (hour minute second microsecond : Nat) : Str :=
  pad 2 hour ++ ':' :: (pad 2 minute ++ ':' :: (pad 2 second ++ '.' :: pad 6 microsecond))

/-- `value.isoformat(timespec='microseconds')`. -/
def isoformatMicroseconds (value : Datetime) : Str :=
  formatDate value.date ++ 'T' ::
    (formatTime value.hour value.minute value.second value.microsecond
      ++ formatOffset value.utcoffset)

/-! ### Reading -/

/-- `int(text)` of a number of this width, in ASCII digits. -/
def number (width : Nat) (text : Str) : Option Nat :=
  if text.length = width && text.all Char.isDigit then some (Nat.ofDigitChars 10 text 0) else none

/-- `_parse_isoformat_date`: `YYYY-MM-DD`. -/
def parseDate (text : Str) : Option (Nat × Nat × Nat) := do
  let year ← number 4 (text.take 4)
  let month ← number 2 ((text.drop 5).take 2)
  let day ← number 2 (text.drop 8)
  if text[4]? = some '-' && text[7]? = some '-' then some (year, month, day) else none

/-- A component of two digits, and what follows it. -/
def component (text : Str) : Option (Nat × Str) := (number 2 (text.take 2)).map (·, text.drop 2)

/-- The loop of `_parse_hh_mm_ss_ff`: at most `n` more components, and what follows them. -/
def components : Nat → Str → Option (List Nat × Str)
  | 0, text => some ([], text)
  | _ + 1, [] => some ([], [])
  | n + 1, c :: text =>
    if c = ':' then do
      let (k, text) ← component text
      let (ks, text) ← components n text
      some (k :: ks, text)
    else none

/-- The microseconds, written with three or with six digits. -/
def parseFraction : Str → Option Nat
  | [] => some 0
  | c :: text =>
    if c = '.' then
      if text.length = 3 then (number 3 text).map (· * 1000) else number 6 text
    else none

/-- `_parse_hh_mm_ss_ff`: `HH[:MM[:SS[.fff[fff]]]]`. -/
def parseClock (text : Str) : Option (Nat × Nat × Nat × Nat) := do
  let (hour, text) ← component text
  let (more, text) ← components 2 text
  let micros ← parseFraction text
  some (hour, more.getD 0 0, more.getD 1 0, micros)

/-- The text before the offset, and the offset with its sign. -/
def splitOffset (text : Str) : Str × Option (Char × Str) :=
  match text.span (· ≠ '-') with
  | (before, sign :: offset) => (before, some (sign, offset))
  | (_, []) =>
    match text.span (· ≠ '+') with
    | (before, sign :: offset) => (before, some (sign, offset))
    | (before, []) => (before, none)

/-- The `tzinfo` of an offset: `HH:MM`, `HH:MM:SS` or `HH:MM:SS.ffffff`. -/
def parseOffset (sign : Char) (text : Str) : Option Tzinfo := do
  if text.length ≠ 5 && text.length ≠ 8 && text.length ≠ 15 then none
  let (hour, minute, second, micros) ← parseClock text
  let n := hour * 3600000000 + minute * 60000000 + second * 1000000 + micros
  if n = 0 then some .utc
  else
    let offset : Int := if sign = '-' then -n else n
    if h : -86400000000 < offset ∧ offset < 86400000000 then some (.other (some ⟨offset, h.1, h.2⟩))
    else none

/-- `_parse_isoformat_time`. -/
def parseTime (text : Str) : Option ((Nat × Nat × Nat × Nat) × Option Tzinfo) := do
  let (text, offset) := splitOffset text
  let clock ← parseClock text
  match offset with
  | none => some (clock, none)
  | some (sign, offset) => (parseOffset sign offset).map fun tzinfo => (clock, some tzinfo)

/-- `datetime(...)`, with its checks. -/
def make (date : Nat × Nat × Nat) (clock : Nat × Nat × Nat × Nat) (tzinfo : Option Tzinfo) :
    Option Datetime :=
  if h : validDate date = true ∧ clock.1 < 24 ∧ clock.2.1 < 60 ∧ clock.2.2.1 < 60
      ∧ clock.2.2.2 < 1000000 then
    some ⟨date, clock.1, clock.2.1, clock.2.2.1, clock.2.2.2, tzinfo, h.1, h.2.1, h.2.2.1, h.2.2.2.1,
      h.2.2.2.2⟩
  else none

/-- `datetime.fromisoformat(text)`; `none` for `ValueError`. -/
def fromisoformat (text : Str) : Option Datetime := do
  let date ← parseDate (text.take 10)
  if (text.drop 11).isEmpty then make date (0, 0, 0, 0) none
  else
    let (clock, tzinfo) ← parseTime (text.drop 11)
    make date clock tzinfo

example : (fromisoformat "2026-02-28T23:30:00-01:30".toList).bind instant = some 63907923600000000 := by
  decide +kernel

/-! ### Reading what was written -/

theorem number_pad {w n : Nat} (hw : 0 < w) (h : n < 10 ^ w) : number w (pad w n) = some n := by
  have hdigits : (pad w n).all Char.isDigit = true := List.all_eq_true.mpr fun _ => isDigit_pad
  have hvalue : Nat.ofDigitChars 10 (pad w n) 0 = n := by
    rw [pad, Nat.ofDigitChars_append, Nat.ofDigitChars_replicate_zero, Nat.mul_zero,
      Nat.ofDigitChars_ten_toDigits]
  simp only [number, length_pad hw h, hdigits, hvalue, decide_true, Bool.and_self, if_true]

theorem component_pad {n : Nat} (h : n < 100) (text : Str) :
    component (pad 2 n ++ text) = some (n, text) := by
  have hlength : (pad 2 n).length = 2 := length_pad (by decide) h
  rw [component, List.take_left' hlength, List.drop_left' hlength, number_pad (by decide) h]
  rfl

/-- The characters of a padded number. -/
theorem pad_two {n : Nat} (h : n < 100) : ∃ a b, pad 2 n = [a, b] ∧ number 2 [a, b] = some n := by
  obtain ⟨a, b, hpad⟩ := List.length_eq_two.mp (length_pad (show 0 < 2 by decide) h)
  exact ⟨a, b, hpad, hpad ▸ number_pad (by decide) h⟩

theorem pad_four {n : Nat} (h : n < 10000) :
    ∃ a b c d, pad 4 n = [a, b, c, d] ∧ number 4 [a, b, c, d] = some n := by
  obtain ⟨a, b, c, d, hpad⟩ := List.length_eq_four.mp (length_pad (show 0 < 4 by decide) h)
  exact ⟨a, b, c, d, hpad, hpad ▸ number_pad (by decide) h⟩

theorem validDate_lt {year month day : Nat} (h : validDate (year, month, day) = true) :
    year < 10000 ∧ month < 100 ∧ day < 100 := by
  obtain ⟨⟨-, hyear⟩, ⟨-, hmonth⟩, -, hday⟩ := validDate_iff.mp h
  have hdays : ∀ leap : Bool, ∀ m ≤ 12, daysInMonth leap m ≤ 31 := by decide
  have := hdays (isLeap year) month hmonth
  omega

theorem length_formatDate {date : Nat × Nat × Nat} (h : validDate date = true) :
    (formatDate date).length = 10 := by
  obtain ⟨year, month, day⟩ := date
  obtain ⟨hyear, hmonth, hday⟩ := validDate_lt h
  rw [formatDate, List.length_append, List.length_cons, List.length_append, List.length_cons,
    length_pad (by decide) hyear, length_pad (by decide) hmonth, length_pad (by decide) hday]

theorem parseDate_formatDate {date : Nat × Nat × Nat} (h : validDate date = true) :
    parseDate (formatDate date) = some date := by
  obtain ⟨year, month, day⟩ := date
  obtain ⟨hyear, hmonth, hday⟩ := validDate_lt h
  obtain ⟨a, b, c, d, hy, hyear⟩ := pad_four hyear
  obtain ⟨e, f, hm, hmonth⟩ := pad_two hmonth
  obtain ⟨g, i, hd, hday⟩ := pad_two hday
  rw [formatDate, hy, hm, hd]
  unfold parseDate
  simp [hyear, hmonth, hday]

theorem parseClock_formatTime {hour minute second microsecond : Nat} (hhour : hour < 24)
    (hminute : minute < 60) (hsecond : second < 60) (hmicro : microsecond < 1000000) :
    parseClock (formatTime hour minute second microsecond)
      = some (hour, minute, second, microsecond) := by
  have hfraction : parseFraction ('.' :: pad 6 microsecond) = some microsecond := by
    have hlength : (pad 6 microsecond).length = 6 := length_pad (by decide) hmicro
    rw [parseFraction, if_pos rfl, hlength, if_neg (by decide), number_pad (by decide) hmicro]
  have hcomponents : components 2 (':' :: (pad 2 minute ++ ':' :: (pad 2 second ++ '.' ::
      pad 6 microsecond))) = some ([minute, second], '.' :: pad 6 microsecond) := by
    simp only [components, component_pad (show minute < 100 by omega),
      component_pad (show second < 100 by omega), if_true, Option.bind_eq_bind, Option.bind_some]
  unfold parseClock formatTime
  rw [component_pad (show hour < 100 by omega)]
  simp only [Option.bind_eq_bind, Option.bind_some, hcomponents, hfraction]
  rfl

/-- No sign is written before the offset. -/
theorem not_mem_formatTime {hour minute second microsecond : Nat} {c : Char}
    (h : c ∈ formatTime hour minute second microsecond) : c ≠ '-' ∧ c ≠ '+' := by
  have hdigit : ∀ {w n : Nat}, c ∈ pad w n → c ≠ '-' ∧ c ≠ '+' := by
    intro w n hc
    have hd := isDigit_pad hc
    constructor
    · rintro rfl
      cases hd
    · rintro rfl
      cases hd
  unfold formatTime at h
  simp only [List.mem_append, List.mem_cons] at h
  rcases h with h | rfl | h | rfl | h | rfl | h
  · exact hdigit h
  · decide
  · exact hdigit h
  · decide
  · exact hdigit h
  · decide
  · exact hdigit h

/-- An offset to the east is split off at its sign. -/
theorem splitOffset_append {text offset : Str} (htext : ∀ c ∈ text, c ≠ '-' ∧ c ≠ '+')
    (hoffset : '-' ∉ offset) : splitOffset (text ++ '+' :: offset) = (text, some ('+', offset)) := by
  have hminus : (text ++ '+' :: offset).span (· ≠ '-') = (text ++ '+' :: offset, []) := by
    have hall : ∀ c ∈ text ++ '+' :: offset, decide (c ≠ '-') = true := by
      intro c hc
      rw [decide_eq_true_eq]
      rcases List.mem_append.mp hc with hc | hc
      · exact (htext c hc).1
      · rcases List.mem_cons.mp hc with rfl | hc
        · decide
        · rintro rfl
          exact hoffset hc
    rw [List.span_eq_takeWhile_dropWhile, List.takeWhile_eq_self_iff.mpr hall,
      List.dropWhile_eq_nil_iff.mpr hall]
  have hplus : (text ++ '+' :: offset).span (· ≠ '+') = (text, '+' :: offset) := by
    have hall : ∀ c ∈ text, decide (c ≠ '+') = true := fun c hc => by simpa using (htext c hc).2
    rw [List.span_eq_takeWhile_dropWhile, List.takeWhile_append_of_pos hall,
      List.dropWhile_append_of_pos hall]
    simp
  unfold splitOffset
  rw [hminus]
  simp only
  rw [hplus]

/-- A datetime in UTC is read back from its text. -/
theorem fromisoformat_isoformatMicroseconds {value : Datetime} (h : value.tzinfo = some .utc) :
    fromisoformat value.isoformatMicroseconds = some value := by
  have hdate : (formatDate value.date).length = 10 := length_formatDate value.date_valid
  have hoffset : formatOffset value.utcoffset = '+' :: "00:00".toList := by
    unfold utcoffset
    rw [h]
    decide +kernel
  have htime : parseTime (formatTime value.hour value.minute value.second value.microsecond
      ++ '+' :: "00:00".toList)
      = some ((value.hour, value.minute, value.second, value.microsecond), some .utc) := by
    unfold parseTime
    rw [splitOffset_append (fun c => not_mem_formatTime) (by decide)]
    simp only [parseClock_formatTime value.hour_lt value.minute_lt value.second_lt
      value.microsecond_lt, Option.bind_eq_bind, Option.bind_some]
    rfl
  have hrest : ∀ rest : Str, (formatDate value.date ++ 'T' :: rest).drop 11 = rest := by
    intro rest
    have hlength : (formatDate value.date ++ ['T']).length = 11 := by
      rw [List.length_append, hdate]
      rfl
    rw [List.append_cons, List.drop_left' hlength]
  have hmake : make value.date (value.hour, value.minute, value.second, value.microsecond)
      (some .utc) = some value := by
    unfold make
    rw [dif_pos ⟨value.date_valid, value.hour_lt, value.minute_lt, value.second_lt,
      value.microsecond_lt⟩, ← h]
  unfold fromisoformat isoformatMicroseconds
  rw [List.take_left' hdate, parseDate_formatDate value.date_valid, hoffset, hrest, htime]
  simp only [Option.bind_eq_bind, Option.bind_some, hmake]
  rw [if_neg]
  simp

/-- The text of a datetime in UTC, or in another zone, is ASCII. -/
theorem ascii_isoformatMicroseconds {value : Datetime} {c : Char}
    (h : c ∈ value.isoformatMicroseconds) : c.toNat < 128 := by
  have hdigit : ∀ {w n : Nat}, c ∈ pad w n → c.toNat < 128 := by
    intro w n hc
    have hd := isDigit_pad hc
    simp only [Char.isDigit, Bool.and_eq_true, decide_eq_true_eq] at hd
    have hle : c.val.toNat ≤ 57 := UInt32.le_iff_toNat_le.mp hd.2
    exact Nat.lt_of_le_of_lt hle (by decide)
  have hoffset : ∀ offset, c ∈ formatOffset offset → c.toNat < 128 := by
    intro offset hc
    cases offset with
    | none => cases hc
    | some micros =>
      simp only [formatOffset, List.mem_cons, List.mem_append] at hc
      rcases hc with rfl | hc | rfl | hc | hc
      · split <;> decide
      · exact hdigit hc
      · decide
      · exact hdigit hc
      · split at hc
        · cases hc
        · rcases List.mem_cons.mp hc with rfl | hc
          · decide
          · rcases List.mem_append.mp hc with hc | hc
            · exact hdigit hc
            · split at hc
              · cases hc
              · rcases List.mem_cons.mp hc with rfl | hc
                · decide
                · exact hdigit hc
  simp only [isoformatMicroseconds, formatDate, formatTime, List.mem_append, List.mem_cons] at h
  rcases h with (h | rfl | h | rfl | h) | rfl | (h | rfl | h | rfl | h | rfl | h) | h
  · exact hdigit h
  · decide
  · exact hdigit h
  · decide
  · exact hdigit h
  · decide
  · exact hdigit h
  · decide
  · exact hdigit h
  · decide
  · exact hdigit h
  · decide
  · exact hdigit h
  · exact hoffset _ h

/-! ### The order of the texts -/

/-- The earlier of two dates, by year, month and day. -/
def DateLt (date date' : Nat × Nat × Nat) : Prop :=
  date.1 < date'.1 ∨ date.1 = date'.1 ∧
    (date.2.1 < date'.2.1 ∨ date.2.1 = date'.2.1 ∧ date.2.2 < date'.2.2)

/-- The earlier of two datetimes, by date and then by hour, minute, second and microsecond. -/
theorem dateLt_of_wall_lt {value value' : Datetime} (h : value.wall < value'.wall) :
    DateLt value.date value'.date ∨ value.date = value'.date ∧
      (value.hour < value'.hour ∨ value.hour = value'.hour ∧
        (value.minute < value'.minute ∨ value.minute = value'.minute ∧
          (value.second < value'.second ∨ value.second = value'.second ∧
            value.microsecond < value'.microsecond))) := by
  have hbounds := And.intro value'.minute_lt (And.intro value'.second_lt value'.microsecond_lt)
  have hbounds' := And.intro value.minute_lt (And.intro value.second_lt value.microsecond_lt)
  by_cases hdate : value.date = value'.date
  · right
    refine ⟨hdate, ?_⟩
    unfold wall at h
    rw [hdate] at h
    omega
  · left
    by_contra hnot
    -- the other date is the earlier one
    have hlex : value'.date.1 < value.date.1 ∨ value'.date.1 = value.date.1 ∧
        (value'.date.2.1 < value.date.2.1 ∨ value'.date.2.1 = value.date.2.1 ∧
          value'.date.2.2 < value.date.2.2) := by
      unfold DateLt at hnot
      simp only [Prod.ext_iff] at hdate
      omega
    have hord : ymd2ord value'.date < ymd2ord value.date :=
      ymd2ord_lt value'.date_valid value.date_valid hlex
    have hday := ymd2ord_pos value'.date_valid
    have hhour := value'.hour_lt
    unfold wall at h
    omega

theorem keyLe_formatDate {date date' : Nat × Nat × Nat} {s t : Str} (hdate : validDate date' = true)
    (h : DateLt date date' ∨ date = date' ∧ keyLe s t = true) :
    keyLe (formatDate date ++ s) (formatDate date' ++ t) = true := by
  obtain ⟨year, month, day⟩ := date
  obtain ⟨year', month', day'⟩ := date'
  obtain ⟨hyear, hmonth, hday⟩ := validDate_lt hdate
  unfold formatDate
  simp only [List.append_assoc, List.cons_append]
  apply keyLe_pad_append (by decide) hyear
  rcases h with (h | ⟨heq, h⟩) | ⟨heq, h⟩
  · exact Or.inl h
  · refine Or.inr ⟨heq, ?_⟩
    rw [keyLe_cons_self]
    apply keyLe_pad_append (by decide) hmonth
    rcases h with h | ⟨heq, h⟩
    · exact Or.inl h
    · refine Or.inr ⟨heq, ?_⟩
      rw [keyLe_cons_self]
      exact keyLe_pad_append (by decide) hday (Or.inl h)
  · -- the same date
    obtain ⟨rfl, rfl, rfl⟩ : year = year' ∧ month = month' ∧ day = day' := by
      simpa only [Prod.mk.injEq] using heq
    refine Or.inr ⟨rfl, ?_⟩
    simpa only [keyLe_cons_self, keyLe_append_left] using h

theorem keyLe_formatTime {value value' : Datetime} {s t : Str}
    (h : value.hour < value'.hour ∨ value.hour = value'.hour ∧
      (value.minute < value'.minute ∨ value.minute = value'.minute ∧
        (value.second < value'.second ∨ value.second = value'.second ∧
          value.microsecond < value'.microsecond))) :
    keyLe (formatTime value.hour value.minute value.second value.microsecond ++ s)
      (formatTime value'.hour value'.minute value'.second value'.microsecond ++ t) = true := by
  have hhour := value'.hour_lt
  have hminute := value'.minute_lt
  have hsecond := value'.second_lt
  unfold formatTime
  simp only [List.append_assoc, List.cons_append]
  apply keyLe_pad_append (by decide) (by omega)
  rcases h with h | ⟨heq, h⟩
  · exact Or.inl h
  refine Or.inr ⟨heq, ?_⟩
  rw [keyLe_cons_self]
  apply keyLe_pad_append (by decide) (by omega)
  rcases h with h | ⟨heq, h⟩
  · exact Or.inl h
  refine Or.inr ⟨heq, ?_⟩
  rw [keyLe_cons_self]
  apply keyLe_pad_append (by decide) (by omega)
  rcases h with h | ⟨heq, h⟩
  · exact Or.inl h
  refine Or.inr ⟨heq, ?_⟩
  rw [keyLe_cons_self]
  exact keyLe_pad_append (by decide) value'.microsecond_lt (Or.inl h)

/-- An earlier wall clock has the smaller text. -/
theorem keyLe_of_wall_lt {value value' : Datetime} (h : value.wall < value'.wall) :
    keyLe value.isoformatMicroseconds value'.isoformatMicroseconds = true := by
  unfold isoformatMicroseconds
  apply keyLe_formatDate value'.date_valid
  rcases dateLt_of_wall_lt h with hdate | ⟨hdate, htime⟩
  · exact Or.inl hdate
  · refine Or.inr ⟨hdate, ?_⟩
    rw [keyLe_cons_self]
    exact keyLe_formatTime htime

/-- Datetimes in UTC are in the order of their texts. -/
theorem keyLe_isoformatMicroseconds {value value' : Datetime} (h : value.tzinfo = some .utc)
    (h' : value'.tzinfo = some .utc) :
    keyLe value.isoformatMicroseconds value'.isoformatMicroseconds = true
      ↔ value.wall ≤ value'.wall := by
  constructor
  · intro hle
    by_contra hlt
    -- texts that are in both orders are one text, of one datetime
    have hback := keyLe_of_wall_lt (not_le.mp hlt)
    have heq := congrArg fromisoformat (keyLe_antisymm hle hback)
    rw [fromisoformat_isoformatMicroseconds h, fromisoformat_isoformatMicroseconds h'] at heq
    rw [Option.some.inj heq] at hlt
    exact hlt (le_refl _)
  · intro hle
    rcases Nat.lt_or_eq_of_le hle with hlt | heq
    · exact keyLe_of_wall_lt hlt
    · have hsame : value = value' := by
        rw [← ofWall_wall value, ← ofWall_wall value']
        simp only [heq, h, h']
      rw [hsame]
      exact keyLe_refl _

end Datetime

end Polymind
