import Polymind.Lib.Decimal
import Polymind.Lib.Text

/-!
# The text of a decimal

`Decimal.str` is `str` of a finite decimal, and `Decimal.ofStr` what `Decimal` makes of a text.  The
limits that the implementation sets to the exponent, `10 ^ 18` and its like, are not modelled.

* `ofStr_str`: a decimal is read back from its text, with its sign, its coefficient and its exponent.
-/

namespace Polymind

namespace Decimal

/-! ### `str` -/

/-- `'%+d' % n`. -/
def signedText (n : Int) : Str := (if n < 0 then '-' else '+') :: Nat.toDigits 10 n.natAbs

/-- The digits before the point, `dotplace` of them. -/
def intpart (int : Str) (dotplace : Int) : Str :=
  if dotplace ≤ 0 then ['0']
  else if int.length ≤ dotplace then int ++ List.replicate (dotplace - int.length).toNat '0'
  else int.take dotplace.toNat

/-- The point and the digits after it. -/
def fracpart (int : Str) (dotplace : Int) : Str :=
  if dotplace ≤ 0 then '.' :: (List.replicate (-dotplace).toNat '0' ++ int)
  else if int.length ≤ dotplace then []
  else '.' :: int.drop dotplace.toNat

/-- `str(d)`. -/
def str (d : Decimal) : Str :=
  let int := Nat.toDigits 10 d.int
  let leftdigits := d.exp + int.length
  let dotplace := if d.exp ≤ 0 ∧ -6 < leftdigits then leftdigits else 1
  let exp := if leftdigits = dotplace then [] else 'E' :: signedText (leftdigits - dotplace)
  (if d.sign then ['-'] else []) ++ (intpart int dotplace ++ (fracpart int dotplace ++ exp))

/-! ### `Decimal` of a text -/

/-- The zeros of the decimal digits of Unicode. -/
def digitZeros : List Nat :=
  [48, 1632, 1776, 1984, 2406, 2534, 2662, 2790, 2918, 3046, 3174, 3302, 3430, 3558, 3664, 3792,
    3872, 4160, 4240, 6112, 6160, 6470, 6608, 6784, 6800, 6992, 7088, 7232, 7248, 42528, 43216,
    43264, 43472, 43504, 43600, 44016, 65296, 66720, 68912, 69734, 69872, 69942, 70096, 70384,
    70736, 70864, 71248, 71360, 71472, 71904, 72016, 72784, 73040, 73120, 92768, 93008, 120782,
    120792, 120802, 120812, 120822, 123200, 123632, 125264, 130032]

/-- Among the ten digits that begin at a code point. -/
def amongDigits (c : Char) (first : Nat) : Bool := first ≤ c.toNat && c.toNat < first + 10

/-- The value of a decimal digit. -/
def digit? (c : Char) : Option Nat := (digitZeros.find? (amongDigits c)).map (c.toNat - ·)

def isDigit (c : Char) : Bool := (digit? c).isSome

/-- `int` of a text of digits. -/
def digitsValue (s : Str) : Nat := s.foldl (fun n c => 10 * n + (digit? c).getD 0) 0

/-- What `Decimal` makes of a value. -/
inductive Number where
  | finite (d : Decimal)
  | infinite (sign : Bool)
  | nan

/-- A text without its sign. -/
def splitSign : Str → Bool × Str
  | '-' :: s => (true, s)
  | '+' :: s => (false, s)
  | s => (false, s)

/-- `int` of the exponent `[-+]?\d+`. -/
def readExp (s : Str) : Option Int :=
  let (sign, digits) := splitSign s
  if digits ≠ [] ∧ digits.all isDigit then
    some (if sign then -(digitsValue digits : Int) else digitsValue digits)
  else none

/-- The digits after a point, and what is left. -/
def splitFrac : Str → Str × Str
  | '.' :: s => (s.takeWhile isDigit, s.dropWhile isDigit)
  | s => ([], s)

/-- `(E[-+]?\d+)?`. -/
def readExponent : Str → Option Int
  | [] => some 0
  | c :: s => if c = 'E' ∨ c = 'e' then readExp s else none

/-- A finite number without its sign. -/
def readFinite (sign : Bool) (s : Str) : Option Decimal :=
  let int := s.takeWhile isDigit
  let (frac, rest) := splitFrac (s.dropWhile isDigit)
  if int = [] ∧ frac = [] then none
  else (readExponent rest).map fun exp => ⟨sign, digitsValue (int ++ frac), exp - frac.length⟩

/-- `Inf(inity)?` or `s?NaN\d*`, without the sign. -/
def readSpecial (sign : Bool) (s : Str) : Option Number :=
  let lower := s.map Char.toLower
  if lower = "inf".toList ∨ lower = "infinity".toList then some (.infinite sign)
  else if (lower.take 3 = "nan".toList ∧ (s.drop 3).all isDigit)
      ∨ (lower.take 4 = "snan".toList ∧ (s.drop 4).all isDigit) then some .nan
  else none

/-- `Decimal(s)`, `none` for an `InvalidOperation`. -/
def ofStr (s : Str) : Option Number :=
  let (sign, s) := splitSign ((Text.strip s).filter (· ≠ '_'))
  match readFinite sign s with
  | some d => some (.finite d)
  | none => readSpecial sign s

/-! ### The round trip -/

theorem digit?_of_isDigit {c : Char} (h : c.isDigit = true) : digit? c = some (c.toNat - '0'.toNat) := by
  have hrange : '0'.toNat ≤ c.toNat ∧ c.toNat ≤ '9'.toNat := Char.isDigit_iff_toNat.mp h
  have hfirst : amongDigits c 48 = true := by
    rw [amongDigits, Bool.and_eq_true, decide_eq_true_iff, decide_eq_true_iff]
    exact ⟨hrange.1, Nat.lt_succ_of_le hrange.2⟩
  have hzeros : digitZeros = 48 :: digitZeros.tail := rfl
  rw [digit?, hzeros, List.find?_cons_of_pos hfirst]
  rfl

/-- A text of ASCII digits. -/
def Digits (s : Str) : Prop := ∀ c ∈ s, c.isDigit = true

theorem Digits.append {s t : Str} (hs : Digits s) (ht : Digits t) : Digits (s ++ t) := by
  intro c hc
  rcases List.mem_append.mp hc with hc | hc
  · exact hs c hc
  · exact ht c hc

theorem digits_toDigits (n : Nat) : Digits (Nat.toDigits 10 n) :=
  fun _ hc => Nat.isDigit_of_mem_toDigits (by decide) (by decide) hc

theorem digits_replicate (n : Nat) : Digits (List.replicate n '0') := by
  intro c hc
  rw [List.eq_of_mem_replicate hc]
  rfl

theorem Digits.isDigit {s : Str} (hs : Digits s) : ∀ c ∈ s, isDigit c = true := by
  intro c hc
  rw [Decimal.isDigit, digit?_of_isDigit (hs c hc)]
  rfl

/-- On ASCII digits the value is the usual one. -/
theorem Digits.value {s : Str} (hs : Digits s) (n : Nat) :
    s.foldl (fun n c => 10 * n + (digit? c).getD 0) n = Nat.ofDigitChars 10 s n := by
  induction s generalizing n with
  | nil => rfl
  | cons c s ih =>
    rw [List.foldl_cons, Nat.ofDigitChars_cons, digit?_of_isDigit (hs c (List.mem_cons_self ..)),
      Option.getD_some, ih fun d hd => hs d (List.mem_cons_of_mem _ hd)]

/-- Leading zeros do not count. -/
theorem digitsValue_zeros (k n : Nat) :
    digitsValue (List.replicate k '0' ++ Nat.toDigits 10 n) = n := by
  rw [digitsValue, ((digits_replicate k).append (digits_toDigits n)).value, Nat.ofDigitChars_append,
    Nat.ofDigitChars_replicate_zero, Nat.mul_zero, Nat.ofDigitChars_ten_toDigits]

theorem digitsValue_toDigits (n : Nat) : digitsValue (Nat.toDigits 10 n) = n := digitsValue_zeros 0 n

/-- What follows does not begin with a digit. -/
def Stops (s : Str) : Prop := ∀ c ∈ s.head?, isDigit c = false

theorem takeWhile_isDigit {s t : Str} (hs : Digits s) (ht : Stops t) :
    (s ++ t).takeWhile isDigit = s ∧ (s ++ t).dropWhile isDigit = t := by
  rw [List.takeWhile_append_of_pos hs.isDigit, List.dropWhile_append_of_pos hs.isDigit]
  cases t with
  | nil => exact ⟨List.append_nil s, rfl⟩
  | cons c t =>
    have hc : ¬isDigit c = true := by
      rw [ht c rfl]
      decide
    rw [List.takeWhile_cons_of_neg hc, List.dropWhile_cons_of_neg hc]
    exact ⟨List.append_nil s, rfl⟩

/-- The fraction of a number: nothing, or a point and digits. -/
def fraction (frac : Str) (point : Bool) : Str := if point then '.' :: frac else []

theorem splitSign_of_isDigit {c : Char} (h : c.isDigit = true) (s : Str) :
    splitSign (c :: s) = (false, c :: s) := by
  have hminus : c ≠ '-' := by
    rintro rfl
    exact absurd h (by decide)
  have hplus : c ≠ '+' := by
    rintro rfl
    exact absurd h (by decide)
  unfold splitSign
  split
  · rename_i heq
    exact absurd (List.cons.inj heq).1 hminus
  · rename_i heq
    exact absurd (List.cons.inj heq).1 hplus
  · rfl

theorem readExp_signedText (n : Int) : readExp (signedText n) = some n := by
  have hne : Nat.toDigits 10 n.natAbs ≠ [] := Nat.toDigits_ne_nil
  have hall : (Nat.toDigits 10 n.natAbs).all isDigit = true :=
    List.all_eq_true.mpr (digits_toDigits n.natAbs).isDigit
  unfold readExp signedText
  by_cases hneg : n < 0
  · rw [if_pos hneg]
    simp only [splitSign, hne, hall, digitsValue_toDigits, ne_eq, not_false_eq_true, and_self, if_true]
    congr 1
    omega
  · rw [if_neg hneg]
    simp only [splitSign, hne, hall, digitsValue_toDigits, ne_eq, not_false_eq_true, and_self, if_true,
      Bool.false_eq_true, if_false]
    congr 1
    omega

/-- A number is read off its digits, its point and its exponent. -/
theorem readFinite_text {sign : Bool} {int frac rest : Str} {point : Bool} {exp : Int}
    (hint : Digits int) (hfrac : Digits frac) (hne : int ≠ []) (hpoint : point = false → frac = [])
    (hrest : Stops rest) (hdot : ∀ s, rest ≠ '.' :: s) (hexp : readExponent rest = some exp) :
    readFinite sign (int ++ (fraction frac point ++ rest))
      = some ⟨sign, digitsValue (int ++ frac), exp - frac.length⟩ := by
  have hstops : Stops (fraction frac point ++ rest) := by
    cases point with
    | false => exact hrest
    | true =>
      intro c hc
      have hc : some '.' = some c := hc
      rw [← Option.some.inj hc]
      decide
  have hsplit : splitFrac (fraction frac point ++ rest) = (frac, rest) := by
    cases point with
    | false =>
      rw [hpoint rfl]
      show splitFrac rest = ([], rest)
      unfold splitFrac
      split
      · exact absurd rfl (hdot _)
      · rfl
    | true =>
      show (((frac ++ rest).takeWhile isDigit), ((frac ++ rest).dropWhile isDigit)) = _
      rw [(takeWhile_isDigit hfrac hrest).1, (takeWhile_isDigit hfrac hrest).2]
  unfold readFinite
  simp only [(takeWhile_isDigit hint hstops).1, (takeWhile_isDigit hint hstops).2, hsplit]
  rw [if_neg (fun h => hne h.1), hexp]
  rfl

/-- What the parts of a text of digits are. -/
structure Parts (int : Str) (dotplace : Int) (before after : Str) (point : Bool) : Prop where
  intpart_eq : intpart int dotplace = before
  fracpart_eq : fracpart int dotplace = fraction after point
  before_digits : Digits before
  before_ne : before ≠ []
  after_digits : Digits after
  after_eq : point = false → after = []
  length_after : (after.length : Int) = int.length - dotplace
  digits : ∃ k, before ++ after = List.replicate k '0' ++ int

theorem exists_parts {int : Str} {dotplace : Int} (hint : Digits int) (hne : int ≠ [])
    (hle : dotplace ≤ int.length) : ∃ before after point, Parts int dotplace before after point := by
  have hpos : 0 < int.length := List.length_pos_iff.mpr hne
  by_cases hzero : dotplace ≤ 0
  · -- zeros between the point and the digits
    refine ⟨['0'], List.replicate (-dotplace).toNat '0' ++ int, true, ?_⟩
    constructor
    · rw [intpart, if_pos hzero]
    · rw [fracpart, if_pos hzero]
      rfl
    · exact digits_replicate 1
    · exact List.cons_ne_nil _ _
    · exact (digits_replicate _).append hint
    · intro h
      cases h
    · rw [List.length_append, List.length_replicate]
      omega
    · refine ⟨(-dotplace).toNat + 1, ?_⟩
      rw [List.replicate_succ]
      rfl
  · by_cases hwhole : int.length ≤ dotplace
    · -- no point
      have heq : (dotplace - int.length).toNat = 0 := by omega
      refine ⟨int, [], false, ?_⟩
      constructor
      · rw [intpart, if_neg hzero, if_pos hwhole, heq]
        exact List.append_nil int
      · rw [fracpart, if_neg hzero, if_pos hwhole]
        rfl
      · exact hint
      · exact hne
      · intro c hc
        exact absurd hc List.not_mem_nil
      · intro _
        rfl
      · rw [List.length_nil]
        omega
      · exact ⟨0, List.append_nil int⟩
    · -- the point is among the digits
      refine ⟨int.take dotplace.toNat, int.drop dotplace.toNat, true, ?_⟩
      constructor
      · rw [intpart, if_neg hzero, if_neg hwhole]
      · rw [fracpart, if_neg hzero, if_neg hwhole]
        rfl
      · intro c hc
        exact hint c (List.mem_of_mem_take hc)
      · intro h
        have := congrArg List.length h
        rw [List.length_take, List.length_nil] at this
        omega
      · intro c hc
        exact hint c (List.mem_of_mem_drop hc)
      · intro h
        cases h
      · rw [List.length_drop]
        omega
      · exact ⟨0, List.take_append_drop _ _⟩

/-- The characters of a number. -/
def isPlain (c : Char) : Bool := c.isDigit || c = '.' || c = 'E' || c = '+' || c = '-'

theorem not_isSpace_of_isPlain {c : Char} (h : isPlain c = true) :
    Text.isSpace c = false ∧ c ≠ '_' := by
  unfold isPlain at h
  simp only [Bool.or_eq_true, decide_eq_true_eq] at h
  rcases h with (((h | rfl) | rfl) | rfl) | rfl
  · have hrange : 48 ≤ c.toNat ∧ c.toNat ≤ 57 := Char.isDigit_iff_toNat.mp h
    refine ⟨?_, ?_⟩
    · unfold Text.isSpace
      simp only [Bool.or_eq_false_iff, Bool.and_eq_false_iff, decide_eq_false_iff_not, beq_eq_false_iff_ne]
      omega
    · rintro rfl
      exact absurd hrange (by decide)
  · decide
  · decide
  · decide
  · decide

/-- A text of such characters is neither stripped nor filtered. -/
theorem strip_filter_plain {s : Str} (h : ∀ c ∈ s, isPlain c = true) :
    (Text.strip s).filter (· ≠ '_') = s := by
  have hdrop : ∀ t : Str, (∀ c ∈ t, isPlain c = true) → t.dropWhile Text.isSpace = t := by
    intro t ht
    cases t with
    | nil => rfl
    | cons c t =>
      apply List.dropWhile_cons_of_neg
      rw [(not_isSpace_of_isPlain (ht c (List.mem_cons_self ..))).1]
      decide
  unfold Text.strip
  rw [hdrop s h, hdrop s.reverse fun c hc => h c (List.mem_reverse.mp hc), List.reverse_reverse,
    List.filter_eq_self]
  intro c hc
  exact decide_eq_true (not_isSpace_of_isPlain (h c hc)).2

theorem isPlain_of_digits {s : Str} (h : Digits s) : ∀ c ∈ s, isPlain c = true := by
  intro c hc
  rw [isPlain, h c hc]
  rfl

theorem isPlain_fraction {frac : Str} (h : Digits frac) (point : Bool) :
    ∀ c ∈ fraction frac point, isPlain c = true := by
  intro c hc
  cases point with
  | false => exact absurd hc List.not_mem_nil
  | true =>
    rcases List.mem_cons.mp hc with rfl | hc
    · rfl
    · exact isPlain_of_digits h c hc

theorem isPlain_signedText (n : Int) : ∀ c ∈ 'E' :: signedText n, isPlain c = true := by
  intro c hc
  rcases List.mem_cons.mp hc with rfl | hc
  · rfl
  rcases List.mem_cons.mp hc with rfl | hc
  · split <;> rfl
  · exact isPlain_of_digits (digits_toDigits _) c hc

/-- The exponent of a text: none, or one that is read back. -/
theorem exponent_ok (n m : Int) :
    let rest := if n = m then [] else 'E' :: signedText (n - m)
    readExponent rest = some (n - m) ∧ Stops rest ∧ (∀ s, rest ≠ '.' :: s)
      ∧ ∀ c ∈ rest, isPlain c = true := by
  dsimp only
  by_cases h : n = m
  · rw [if_pos h, h, Int.sub_self]
    refine ⟨rfl, ?_, ?_, ?_⟩
    · intro c hc
      cases hc
    · intro s hs
      cases hs
    · intro c hc
      exact absurd hc List.not_mem_nil
  · rw [if_neg h]
    refine ⟨?_, ?_, ?_, isPlain_signedText _⟩
    · show (if 'E' = 'E' ∨ 'E' = 'e' then readExp (signedText (n - m)) else none) = _
      rw [if_pos (Or.inl rfl), readExp_signedText]
    · intro c hc
      rw [← Option.some.inj hc]
      decide
    · intro s hs
      exact absurd (List.cons.inj hs).1 (by decide)

/-- A decimal is read back from its text. -/
theorem ofStr_str (d : Decimal) : ofStr d.str = some (.finite d) := by
  have hdigits := digits_toDigits d.int
  have hpos : 0 < (Nat.toDigits 10 d.int).length := Nat.length_toDigits_pos
  unfold str
  dsimp only
  generalize hplace : (if d.exp ≤ 0 ∧ -6 < d.exp + ((Nat.toDigits 10 d.int).length : Int)
    then d.exp + ((Nat.toDigits 10 d.int).length : Int) else 1) = dotplace
  have hle : dotplace ≤ ((Nat.toDigits 10 d.int).length : Int) := by
    rw [← hplace]
    split <;> omega
  obtain ⟨before, after, point, hparts⟩ := exists_parts hdigits Nat.toDigits_ne_nil hle
  obtain ⟨hexp, hstops, hdot, hplain⟩ :=
    exponent_ok (d.exp + ((Nat.toDigits 10 d.int).length : Int)) dotplace
  generalize (if d.exp + ((Nat.toDigits 10 d.int).length : Int) = dotplace then [] else _) = rest
    at hexp hstops hdot hplain
  rw [hparts.intpart_eq, hparts.fracpart_eq]
  -- the text has neither space nor underscore
  have hbody : ∀ c ∈ before ++ (fraction after point ++ rest), isPlain c = true := by
    intro c hc
    rcases List.mem_append.mp hc with hc | hc
    · exact isPlain_of_digits hparts.before_digits c hc
    rcases List.mem_append.mp hc with hc | hc
    · exact isPlain_fraction hparts.after_digits point c hc
    · exact hplain c hc
  have hread : readFinite d.sign (before ++ (fraction after point ++ rest)) = some d := by
    obtain ⟨k, hk⟩ := hparts.digits
    rw [readFinite_text hparts.before_digits hparts.after_digits hparts.before_ne hparts.after_eq hstops
      hdot hexp, hk, digitsValue_zeros, hparts.length_after]
    congr 2
    omega
  have hsign : splitSign ((if d.sign then ['-'] else []) ++ (before ++ (fraction after point ++ rest)))
      = (d.sign, before ++ (fraction after point ++ rest)) := by
    cases d.sign with
    | true => rfl
    | false =>
      obtain ⟨c, t, rfl⟩ := List.exists_cons_of_ne_nil hparts.before_ne
      exact splitSign_of_isDigit (hparts.before_digits c (List.mem_cons_self ..)) _
  unfold ofStr
  rw [strip_filter_plain, hsign]
  · dsimp only
    rw [hread]
  · intro c hc
    rcases List.mem_append.mp hc with hc | hc
    · cases hs : d.sign with
      | true =>
        rw [hs] at hc
        rw [List.mem_singleton.mp hc]
        rfl
      | false =>
        rw [hs] at hc
        exact absurd hc List.not_mem_nil
    · exact hbody c hc

end Decimal

end Polymind
