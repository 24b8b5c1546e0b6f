import Polymind.Lib.Except
import Mathlib.Algebra.Order.Field.Basic
import Mathlib.Algebra.Order.Ring.Rat
import Mathlib.Tactic.Ring
import Mathlib.Tactic.Linarith

/-!
# The arithmetic of `decimal`

A finite `Decimal` is a sign, a coefficient and an exponent; `add`, `mul` and `div` round their exact
results to the precision of the context, with `ROUND_HALF_EVEN` (`fix`).  The exceptional conditions
that the default context traps are raised.

`IsUnits lo n d` says that `d` is `n` units of `10 ^ lo`, and that its exponent is no less than `lo`.

* `fix_isUnits`: a number of fewer than `prec` digits in these units is not rounded;
* `add_isUnits`, `mul_isUnits`, `div_isUnits`: so sums, products, and quotients by powers of ten are
  exact while they fit;
* `lt_iff`: the comparison is that of the values.
-/

namespace Polymind

/-- A finite `Decimal`: `_sign`, `_int` and `_exp`. -/
structure Decimal where
  sign : Bool
  int : Nat
  exp : Int
deriving DecidableEq

namespace Decimal

/-- What the default context traps. -/
inductive Signal where
  | invalidOperation | divisionByZero | overflow
deriving DecidableEq

structure Context where
  prec : Nat
  emax : Int
  emin : Int

namespace Context

def etiny (ctx : Context) : Int := ctx.emin - ctx.prec + 1

def etop (ctx : Context) : Int := ctx.emax - ctx.prec + 1

/-- `localcontext()` over the default context, with another precision. -/
def localcontext (prec : Nat) : Context := ⟨prec, 999999, -999999⟩

end Context

/-! ### Values -/

/-- The coefficient with its sign. -/
def signed (d : Decimal) : Int := if d.sign then -d.int else d.int

/-- The rational that a decimal denotes. -/
def toRat (d : Decimal) : ℚ := d.signed * 10 ^ d.exp

/-- `Decimal(n)`. -/
def ofNat (n : Nat) : Decimal := ⟨false, n, 0⟩

/-- `len(str(n))`. -/
def numDigits (n : Nat) : Nat := (Nat.toDigits 10 n).length

/-- The number of units of `10 ^ lo` in a decimal whose exponent is no less than `lo`. -/
def units (lo : Int) (d : Decimal) : Int := d.signed * 10 ^ (d.exp - lo).toNat

/-! ### Arithmetic -/

/-- A coefficient without its last `n` digits, rounded half to even. -/
def roundHalfEven (int n : Nat) : Nat :=
  let coeff := int / 10 ^ n
  let rest := int % 10 ^ n
  if 10 ^ n < 2 * rest ∨ (10 ^ n = 2 * rest ∧ coeff % 2 = 1) then coeff + 1 else coeff

/-- `_fix`: rounded to the precision of the context; the exponent of a zero is clamped. -/
def fix (ctx : Context) (d : Decimal) : Except Signal Decimal :=
  if d.int = 0 then .ok { d with exp := min (max d.exp ctx.etiny) ctx.emax }
  else
    let expMin := numDigits d.int + d.exp - ctx.prec
    if ctx.etop < expMin then .error .overflow
    else
      let expMin := max expMin ctx.etiny
      if d.exp < expMin then
        let coeff := roundHalfEven d.int (expMin - d.exp).toNat
        if numDigits coeff ≤ ctx.prec then .ok ⟨d.sign, coeff, expMin⟩
        else if ctx.etop < expMin + 1 then .error .overflow
        else .ok ⟨d.sign, coeff / 10, expMin + 1⟩
      else .ok d

/-- `x + y`; a sum of zeros is negative only if both are. -/
def add (ctx : Context) (x y : Decimal) : Except Signal Decimal :=
  let exp := min x.exp y.exp
  let sum := x.units exp + y.units exp
  fix ctx ⟨if sum = 0 then x.sign && y.sign else decide (sum < 0), sum.natAbs, exp⟩

/-- `x * y`. -/
def mul (ctx : Context) (x y : Decimal) : Except Signal Decimal :=
  fix ctx ⟨x.sign ^^ y.sign, x.int * y.int, x.exp + y.exp⟩

/-- `while exp < ideal_exp and coeff % 10 == 0`, from `n` below the ideal exponent. -/
def stripZeros : Nat → Nat → Int → Nat × Int
  | 0, coeff, exp => (coeff, exp)
  | n + 1, coeff, exp =>
    if coeff % 10 = 0 then stripZeros n (coeff / 10) (exp + 1) else (coeff, exp)

/-- `x / y`: a digit more than the precision, whose last is made to round as the exact quotient does;
an exact quotient gets as close to the ideal exponent as it can. -/
def div (ctx : Context) (x y : Decimal) : Except Signal Decimal :=
  let sign := x.sign ^^ y.sign
  if y.int = 0 then .error (if x.int = 0 then .invalidOperation else .divisionByZero)
  else if x.int = 0 then fix ctx ⟨sign, 0, x.exp - y.exp⟩
  else
    let shift : Int := numDigits y.int - numDigits x.int + ctx.prec + 1
    let exp := x.exp - y.exp - shift
    let num := x.int * 10 ^ shift.toNat
    let den := y.int * 10 ^ (-shift).toNat
    let coeff := num / den
    if num % den = 0 then
      let (coeff, exp) := stripZeros shift.toNat coeff exp
      fix ctx ⟨sign, coeff, exp⟩
    else fix ctx ⟨sign, if coeff % 5 = 0 then coeff + 1 else coeff, exp⟩

/-- `x < y`. -/
def lt (x y : Decimal) : Bool :=
  let exp := min x.exp y.exp
  x.units exp < y.units exp

/-! ### Units -/

/-- The decimal is `n` units of `10 ^ lo`. -/
structure IsUnits (lo : Int) (n : Int) (d : Decimal) : Prop where
  le_exp : lo ≤ d.exp
  units_eq : d.units lo = n

theorem toRat_eq_units {lo : Int} {d : Decimal} (h : lo ≤ d.exp) :
    d.toRat = d.units lo * 10 ^ lo := by
  obtain ⟨k, hk⟩ := Int.eq_ofNat_of_zero_le (Int.sub_nonneg_of_le h)
  have hexp : d.exp = k + lo := by omega
  unfold toRat units
  rw [hk, hexp, zpow_add₀ (by norm_num)]
  push_cast
  rw [Int.toNat_natCast, zpow_natCast, mul_assoc]

theorem IsUnits.toRat_eq {lo n : Int} {d : Decimal} (h : IsUnits lo n d) : d.toRat = n * 10 ^ lo := by
  rw [toRat_eq_units h.le_exp, h.units_eq]

theorem IsUnits.self (d : Decimal) : IsUnits d.exp d.signed d :=
  ⟨Int.le_refl _, by simp [units]⟩

theorem isUnits_ofNat (n : Nat) : IsUnits 0 n (ofNat n) := IsUnits.self (ofNat n)

/-- The same decimal in smaller units. -/
theorem IsUnits.refine {lo n : Int} {d : Decimal} (h : IsUnits lo n d) (k : Nat) :
    IsUnits (lo - k) (n * 10 ^ k) d := by
  have hle := h.le_exp
  refine ⟨by omega, ?_⟩
  have hexp : (d.exp - (lo - k)).toNat = (d.exp - lo).toNat + k := by omega
  rw [← h.units_eq, units, units, hexp, pow_add, mul_assoc]

theorem natAbs_signed (d : Decimal) : d.signed.natAbs = d.int := by
  unfold signed
  split <;> simp

theorem IsUnits.natAbs_eq {lo n : Int} {d : Decimal} (h : IsUnits lo n d) :
    n.natAbs = d.int * 10 ^ (d.exp - lo).toNat := by
  rw [← h.units_eq, units, Int.natAbs_mul, natAbs_signed, Int.natAbs_pow]
  rfl

theorem IsUnits.nonneg_iff {lo n : Int} {d : Decimal} (h : IsUnits lo n d) : 0 ≤ d.toRat ↔ 0 ≤ n := by
  have hpos : (0 : ℚ) < 10 ^ lo := zpow_pos (by norm_num) lo
  rw [h.toRat_eq, mul_nonneg_iff_of_pos_right hpos]
  exact_mod_cast Iff.rfl

/-- The comparison is that of the values. -/
theorem lt_iff (x y : Decimal) : x.lt y = true ↔ x.toRat < y.toRat := by
  have hpos : (0 : ℚ) < 10 ^ min x.exp y.exp := zpow_pos (by norm_num) _
  unfold lt
  rw [decide_eq_true_iff, toRat_eq_units (Int.min_le_left x.exp y.exp),
    toRat_eq_units (Int.min_le_right x.exp y.exp), mul_lt_mul_iff_left₀ hpos]
  exact_mod_cast Iff.rfl

/-! ### Rounding -/

theorem numDigits_le {n k : Nat} (hk : 0 < k) (h : n < 10 ^ k) : numDigits n ≤ k :=
  (Nat.length_toDigits_le_iff (by decide) hk).mpr h

theorem numDigits_pos (n : Nat) : 0 < numDigits n := Nat.length_toDigits_pos

theorem lt_pow_numDigits (n : Nat) : n < 10 ^ numDigits n :=
  (Nat.length_toDigits_le_iff (by decide) (numDigits_pos n)).mp (Nat.le_refl _)

theorem pow_le_of_lt_numDigits {n k : Nat} (hk : 0 < k) (h : k < numDigits n) : 10 ^ k ≤ n := by
  by_contra hlt
  exact absurd (numDigits_le hk (Nat.lt_of_not_le hlt)) (Nat.not_le_of_lt h)

/-- A number with fewer digits than the precision of the context, in units that are within the range
of its exponents. -/
structure Context.Holds (ctx : Context) (lo n : Int) : Prop where
  etiny_le : ctx.etiny ≤ lo
  le_etop : lo ≤ ctx.etop
  lt_prec : n.natAbs < 10 ^ ctx.prec

/-- The digits of a coefficient and the zeros after it are those of the number of units. -/
theorem numDigits_add_le {int k prec : Nat} (h0 : int ≠ 0) (h : int * 10 ^ k < 10 ^ prec) :
    numDigits int + k ≤ prec := by
  by_contra hlt
  rcases Nat.lt_or_ge k prec with hk | hk
  · -- the coefficient alone has too many digits
    have hpow : 10 ^ prec = 10 ^ (prec - k) * 10 ^ k := by
      rw [← pow_add, Nat.sub_add_cancel hk.le]
    rw [hpow, Nat.mul_lt_mul_right (by positivity)] at h
    have := numDigits_le (by omega) h
    omega
  · have hle : 10 ^ prec ≤ 10 ^ k := Nat.pow_le_pow_right (by decide) hk
    have := Nat.le_mul_of_pos_left (10 ^ k) (Nat.pos_of_ne_zero h0)
    omega

/-- What fits is not rounded. -/
theorem fix_isUnits {ctx : Context} {lo n : Int} {d : Decimal} (hd : IsUnits lo n d)
    (hctx : ctx.Holds lo n) (hprec : 0 < ctx.prec) : ∃ d', fix ctx d = .ok d' ∧ IsUnits lo n d' := by
  have hle := hd.le_exp
  have htiny := hctx.etiny_le
  have htop := hctx.le_etop
  unfold fix
  by_cases h0 : d.int = 0
  · -- only the exponent of a zero changes
    rw [if_pos h0]
    refine ⟨_, rfl, ?_, ?_⟩
    · show lo ≤ min (max d.exp ctx.etiny) ctx.emax
      unfold Context.etop at htop
      omega
    · have hsigned : d.signed = 0 := by simp [signed, h0]
      have hclamped : ∀ exp, ({ d with exp } : Decimal).signed = 0 := fun _ => hsigned
      rw [← hd.units_eq, units, units, hsigned, hclamped, zero_mul, zero_mul]
  · have hdigits : numDigits d.int + (d.exp - lo).toNat ≤ ctx.prec := by
      apply numDigits_add_le h0
      rw [← hd.natAbs_eq]
      exact hctx.lt_prec
    rw [if_neg h0]
    dsimp only
    rw [if_neg (by omega), if_neg (by omega)]
    exact ⟨d, rfl, hd⟩

/-! ### Exact operations -/

variable {ctx : Context} {lo m n : Int} {x y : Decimal}

theorem units_natAbs (sign : Bool) (sum exp : Int) (hsign : sum ≠ 0 → sign = decide (sum < 0)) :
    (⟨sign, sum.natAbs, exp⟩ : Decimal).signed = sum := by
  unfold signed
  by_cases h0 : sum = 0
  · rw [h0]
    simp
  · rw [hsign h0]
    by_cases hneg : sum < 0
    · simp only [hneg, decide_true, if_true]
      omega
    · simp only [hneg, decide_false, Bool.false_eq_true, if_false]
      omega

/-- A sum that fits is exact. -/
theorem add_isUnits (hx : IsUnits lo m x) (hy : IsUnits lo n y) (hctx : ctx.Holds lo (m + n))
    (hprec : 0 < ctx.prec) : ∃ z, add ctx x y = .ok z ∧ IsUnits lo (m + n) z := by
  have hxle := hx.le_exp
  have hyle := hy.le_exp
  unfold add
  dsimp only
  refine fix_isUnits ⟨by dsimp only; omega, ?_⟩ hctx hprec
  -- the units of the smaller exponent are multiples of those of `lo`
  obtain ⟨k, hk⟩ := Int.eq_ofNat_of_zero_le (show 0 ≤ min x.exp y.exp - lo by omega)
  have hrefine : ∀ d : Decimal, min x.exp y.exp ≤ d.exp →
      d.units (min x.exp y.exp) * 10 ^ k = d.units lo := by
    intro d hd
    have hexp : (d.exp - lo).toNat = (d.exp - min x.exp y.exp).toNat + k := by omega
    rw [units, units, hexp, pow_add, mul_assoc]
  rw [units, units_natAbs _ _ _ (fun h0 => if_neg h0), hk, Int.toNat_natCast, add_mul,
    hrefine x (Int.min_le_left ..), hrefine y (Int.min_le_right ..), hx.units_eq, hy.units_eq]

theorem signed_mul (x y : Decimal) (exp : Int) :
    (⟨x.sign ^^ y.sign, x.int * y.int, exp⟩ : Decimal).signed = x.signed * y.signed := by
  unfold signed
  cases x.sign <;> cases y.sign <;> simp

/-- A product that fits is exact. -/
theorem mul_isUnits {lo' : Int} (hx : IsUnits lo m x) (hy : IsUnits lo' n y)
    (hctx : ctx.Holds (lo + lo') (m * n)) (hprec : 0 < ctx.prec) :
    ∃ z, mul ctx x y = .ok z ∧ IsUnits (lo + lo') (m * n) z := by
  have hxle := hx.le_exp
  have hyle := hy.le_exp
  unfold mul
  refine fix_isUnits ⟨by dsimp only; omega, ?_⟩ hctx hprec
  have hexp : (x.exp + y.exp - (lo + lo')).toNat = (x.exp - lo).toNat + (y.exp - lo').toNat := by omega
  rw [units, signed_mul, ← hx.units_eq, ← hy.units_eq, units, units, hexp, pow_add]
  ring

/-- What stripping zeros keeps, and that it strips as many as there are. -/
theorem stripZeros_spec (n coeff : Nat) (exp : Int) {j : Nat} (hj : j ≤ n) (hdvd : 10 ^ j ∣ coeff) :
    ∃ k : Nat, (stripZeros n coeff exp).2 = exp + k ∧ j ≤ k ∧
      coeff = (stripZeros n coeff exp).1 * 10 ^ k := by
  induction n generalizing coeff exp j with
  | zero => exact ⟨0, by simp [stripZeros], hj, by simp [stripZeros]⟩
  | succ n ih =>
    unfold stripZeros
    by_cases h0 : coeff % 10 = 0
    · rw [if_pos h0]
      have hdvd' : 10 ^ (j - 1) ∣ coeff / 10 := by
        cases j with
        | zero => exact Nat.one_dvd _
        | succ j =>
          obtain ⟨c, rfl⟩ := hdvd
          refine ⟨c, ?_⟩
          rw [pow_succ, Nat.add_sub_cancel, Nat.mul_assoc, Nat.mul_left_comm,
            Nat.mul_div_cancel_left _ (by decide)]
      obtain ⟨k, hexp, hle, heq⟩ := ih (coeff / 10) (exp + 1) (by omega) hdvd'
      refine ⟨k + 1, ?_, by omega, ?_⟩
      · rw [hexp]
        push_cast
        ring
      · rw [pow_succ, ← Nat.mul_assoc, ← heq]
        omega
    · rw [if_neg h0]
      refine ⟨0, by simp, ?_, by simp⟩
      -- a coefficient that ends with another digit is no multiple of ten
      cases j with
      | zero => exact Nat.le_refl _
      | succ j =>
        exact absurd (Nat.mod_eq_zero_of_dvd (Nat.dvd_trans (Dvd.intro_left _ (pow_succ 10 j).symm) hdvd))
          h0

theorem numDigits_pow (k : Nat) : numDigits (10 ^ k) = k + 1 := by
  apply Nat.le_antisymm
  · exact numDigits_le (Nat.succ_pos k) (Nat.pow_lt_pow_right (by decide) (Nat.lt_succ_self k))
  · by_contra hlt
    have := lt_pow_numDigits (10 ^ k)
    have hle : 10 ^ numDigits (10 ^ k) ≤ 10 ^ k := Nat.pow_le_pow_right (by decide) (by omega)
    omega

theorem signed_scale (sign : Bool) (int k : Nat) (exp exp' : Int) :
    (⟨sign, int, exp⟩ : Decimal).signed * k = (⟨sign, int * k, exp'⟩ : Decimal).signed := by
  unfold signed
  cases sign <;> simp

/-- A quotient by a power of ten that fits is exact. -/
theorem div_isUnits (hx : IsUnits lo n x) (k : Nat) (hctx : ctx.Holds (lo - k) n)
    (hprec : 0 < ctx.prec) : ∃ z, div ctx x (ofNat (10 ^ k)) = .ok z ∧ IsUnits (lo - k) n z := by
  have hxle := hx.le_exp
  have hpow : (10 : Nat) ^ k ≠ 0 := by positivity
  have hsign : (x.sign ^^ false) = x.sign := Bool.xor_false _
  unfold div ofNat
  dsimp only
  rw [if_neg hpow, hsign]
  by_cases h0 : x.int = 0
  · rw [if_pos h0]
    refine fix_isUnits ⟨by dsimp only; omega, ?_⟩ hctx hprec
    have hsigned : x.signed = 0 := by simp [signed, h0]
    rw [← hx.units_eq, units, units, hsigned, zero_mul]
    simp [signed]
  · rw [if_neg h0, numDigits_pow]
    have hdigits : numDigits x.int + (x.exp - lo).toNat ≤ ctx.prec := by
      apply numDigits_add_le h0
      rw [← hx.natAbs_eq]
      exact hctx.lt_prec
    -- the shift makes room for the quotient
    obtain ⟨j, hj⟩ := Int.eq_ofNat_of_zero_le
      (show 0 ≤ ((k + 1 : Nat) : Int) - numDigits x.int + ctx.prec + 1 - k by omega)
    have hshift : ((k + 1 : Nat) : Int) - numDigits x.int + ctx.prec + 1 = ((j + k : Nat) : Int) := by
      push_cast at hj ⊢
      omega
    rw [hshift, Int.toNat_natCast, Int.toNat_neg_natCast, pow_zero, Nat.mul_one, pow_add,
      ← Nat.mul_assoc, Nat.mul_mod_left, if_pos rfl, Nat.mul_div_cancel _ (Nat.pos_of_ne_zero hpow)]
    obtain ⟨i, hexp, hle, hcoeff⟩ := stripZeros_spec (j + k) (x.int * 10 ^ j)
      (x.exp - 0 - ((j + k : Nat) : Int)) (Nat.le_add_right j k) (Dvd.intro_left _ rfl)
    refine fix_isUnits ⟨?_, ?_⟩ hctx hprec
    · rw [hexp]
      push_cast
      omega
    · generalize (stripZeros _ _ _).1 = coeff at hcoeff
      have hsame : coeff * 10 ^ (i - j) = x.int := by
        apply Nat.eq_of_mul_eq_mul_right (show 0 < 10 ^ j by positivity)
        rw [hcoeff, Nat.mul_assoc, ← pow_add, Nat.sub_add_cancel hle]
      have hscale : (x.exp - 0 - ((j + k : Nat) : Int) + i - (lo - k)).toNat
          = (i - j) + (x.exp - lo).toNat := by
        push_cast
        omega
      rw [units, hexp, hscale, pow_add, ← mul_assoc, ← hx.units_eq, units]
      congr 1
      have := signed_scale x.sign coeff (10 ^ (i - j)) (x.exp - 0 - ((j + k : Nat) : Int) + i) x.exp
      rw [hsame] at this
      exact_mod_cast this

end Decimal

end Polymind
