import Polymind.Governance.Money
import Mathlib.Tactic.Positivity

/-!
# Money is exact

The ledger on decimals is the ledger on rationals: `exact` reads the amounts of a price, of limits and
of a row as the rationals they denote.  An admitted amount is at most `10 ^ 24` units of `10 ^ -12`,
so a cost is at most `2 * 10 ^ 42` units of `10 ^ -21`, and `10 ^ 15` of them have fewer than 60
digits: nothing is rounded.

* `cost_ok`: a cost is the rational that its definition says;
* `totalExpense_ok`, `overCost_ok`: the expense of up to `10 ^ 15` rows and its comparison with a
  limit;
* `money_exact`: and so the ledger on decimals takes the decisions of the ledger on rationals.
-/

namespace Polymind.Governance.Money

open Decimal (Signal Number IsUnits)

/-! ### The amounts as rationals -/

/-- The rational of an amount. -/
def Amount.exact (a : Amount) : ℚ := a.d.toRat

theorem Amount.exact_nonneg (a : Amount) : 0 ≤ a.exact := by
  by_contra hneg
  have hlt : a.d.lt (.ofNat 0) = true := by
    rw [Decimal.lt_iff, (Decimal.isUnits_ofNat 0).toRat_eq]
    simpa [Amount.exact] using hneg
  rw [a.nonneg] at hlt
  exact absurd hlt (by decide)

theorem Amount.exact_le (a : Amount) : a.exact ≤ 10 ^ 12 := by
  by_contra hlarge
  have hlt : (Decimal.ofNat 1000000000000).lt a.d = true := by
    rw [Decimal.lt_iff, (Decimal.isUnits_ofNat _).toRat_eq]
    have := lt_of_not_ge hlarge
    unfold Amount.exact at this
    norm_num at this ⊢
    exact this
  rw [a.le_max] at hlt
  exact absurd hlt (by decide)

/-- Every admitted amount passes the checks, and is returned as it is. -/
theorem money_amount (a : Amount) : money (.number (.finite a.d)) = .ok a :=
  dif_pos ⟨a.nonneg, a.le_max, a.le_exp⟩

/-- Every validated price is one that the validators return. -/
theorem validate_price (price : Price) : Price.validate price.provider price.model
    (.number (.finite price.inputPrice.d)) (.number (.finite price.outputPrice.d)) price.priceUnit
      = .ok price := by
  have hunit : decimalUnit price.priceUnit = .ok ⟨price.priceUnit, price.priceUnit_pow⟩ :=
    dif_pos price.priceUnit_pow
  rw [Price.validate, money_amount, ok_bind, money_amount, ok_bind, hunit]
  rfl

/-- A validated price, with its amounts as rationals. -/
def Price.exact (price : Price) : Governance.Price where
  provider := price.provider
  model := price.model
  inputPrice := price.inputPrice.exact
  outputPrice := price.outputPrice.exact
  priceUnit := price.priceUnit
  inputPrice_nonneg := price.inputPrice.exact_nonneg
  outputPrice_nonneg := price.outputPrice.exact_nonneg
  priceUnit_pow := price.priceUnit_pow

@[reducible] def PricingCatalog.exact (catalog : PricingCatalog) : Governance.PricingCatalog where
  version := catalog.version
  effectiveDate := catalog.effectiveDate
  prices := catalog.prices.map Price.exact

def Limits.exact (limits : Limits) : Governance.Limits where
  requestsPerWindow := limits.requestsPerWindow
  windowSeconds := limits.windowSeconds
  interactiveConcurrent := limits.interactiveConcurrent
  backgroundConcurrent := limits.backgroundConcurrent
  reservedTokens := limits.reservedTokens
  dailyTokens := limits.dailyTokens
  monthlyTokens := limits.monthlyTokens
  monthlyCost := limits.monthlyCost.exact
  monthlyCost_nonneg := limits.monthlyCost.exact_nonneg

def QuotaPolicy.exact {U : Type} (policy : QuotaPolicy U) : Governance.QuotaPolicy U where
  version := policy.version
  owner := policy.owner.exact
  tenant := policy.tenant.exact
  evaluation := policy.evaluation

@[reducible] def LedgerEnv.exact {U : Type} (env : LedgerEnv U) : Governance.LedgerEnv U where
  toIds := env.toIds
  policy := env.policy.exact
  catalog := env.catalog.exact
  eventLimit := env.eventLimit

/-- The rational of a stored cost. -/
def costValue (text : Str) : ℚ :=
  match Decimal.ofStr text with
  | some (.finite d) => d.toRat
  | _ => 0

theorem costValue_str (d : Decimal) : costValue d.str = d.toRat := by
  rw [costValue, Decimal.ofStr_str]

def Reservation.exact {U : Type} (r : Reservation U) : Governance.Reservation U where
  ticket := r.ticket
  tenant := r.tenant
  owner := r.owner
  identity := r.identity
  identityKey := r.identityKey
  workload := r.workload
  policy := r.policy
  catalog := r.catalog
  provider := r.provider
  model := r.model
  input := r.input
  output := r.output
  cost := costValue r.cost
  actualInput := r.actualInput
  actualOutput := r.actualOutput
  actualCost := r.actualCost.map costValue
  state := r.state
  created := r.created

@[reducible] def Ledger.exact {U : Type} (db : Ledger U) : Governance.Ledger U where
  reservations := db.reservations.map Reservation.exact
  events := db.events

/-! ### A cost -/

/-- A value that is at most `bound` units of `10 ^ -21`. -/
structure Within (bound : Int) (d : Decimal) (q : ℚ) : Prop where
  units : ∃ n : Int, IsUnits (-21) n d ∧ 0 ≤ n ∧ n ≤ bound
  value : d.toRat = q

/-- The most units of `10 ^ -21` that a cost has. -/
def maxCost : Int := 2 * 10 ^ 42

theorem ctx_holds {lo n : Int} (hlo : -21 ≤ lo) (hhi : lo ≤ 0) (h0 : 0 ≤ n) (hn : n < 10 ^ 60) :
    ctx.Holds lo n := by
  refine ⟨?_, ?_, ?_⟩
  · show (-999999 : Int) - 60 + 1 ≤ lo
    omega
  · show lo ≤ (999999 : Int) - 60 + 1
    omega
  · show n.natAbs < 10 ^ 60
    zify
    rwa [abs_of_nonneg h0]

theorem ctx_prec : 0 < ctx.prec := Nat.succ_pos _

/-- An admitted amount has at most `10 ^ 24` units of `10 ^ -12`. -/
theorem Amount.isUnits (a : Amount) :
    ∃ n : Int, IsUnits (-12) n a.d ∧ 0 ≤ n ∧ n ≤ 10 ^ 24 ∧ a.exact = n * 10 ^ (-12 : Int) := by
  have hunits : IsUnits (-12) (a.d.units (-12)) a.d := ⟨a.le_exp, rfl⟩
  refine ⟨_, hunits, hunits.nonneg_iff.mp a.exact_nonneg, ?_, hunits.toRat_eq⟩
  have hle := a.exact_le
  rw [Amount.exact, hunits.toRat_eq, zpow_neg, ← div_eq_mul_inv,
    div_le_iff₀ (by positivity)] at hle
  have hpow : (10 : ℚ) ^ 12 * 10 ^ (12 : Int) = 10 ^ 24 := by norm_num
  rw [hpow] at hle
  exact_mod_cast hle

/-- A cost is the rational that its definition says. -/
theorem cost_ok (price : Price) {input output : Nat} (hinput : input ≤ 10 ^ 9)
    (houtput : output ≤ 10 ^ 9) : ∃ d, price.cost input output = .ok d
      ∧ Within maxCost d (price.exact.cost input output) := by
  obtain ⟨m, hm, hm0, hmle, hmexact⟩ := price.inputPrice.isUnits
  obtain ⟨n, hn, hn0, hnle, hnexact⟩ := price.outputPrice.isUnits
  obtain ⟨k, hk, hunit⟩ := price.priceUnit_pow
  have hi : (input : Int) ≤ 10 ^ 9 := by exact_mod_cast hinput
  have ho : (output : Int) ≤ 10 ^ 9 := by exact_mod_cast houtput
  have hmi : m * input ≤ 10 ^ 33 := by
    calc m * input ≤ 10 ^ 24 * 10 ^ 9 := mul_le_mul hmle hi (by positivity) (by positivity)
      _ = 10 ^ 33 := by norm_num
  have hno : n * output ≤ 10 ^ 33 := by
    calc n * output ≤ 10 ^ 24 * 10 ^ 9 := mul_le_mul hnle ho (by positivity) (by positivity)
      _ = 10 ^ 33 := by norm_num
  have hmi0 : 0 ≤ m * input := by positivity
  have hno0 : 0 ≤ n * output := by positivity
  -- the products, the sum and the quotient
  obtain ⟨x, hx, hxunits⟩ := Decimal.mul_isUnits hm (Decimal.isUnits_ofNat input)
    (ctx_holds (by omega) (by omega) hmi0 (by omega)) ctx_prec
  obtain ⟨y, hy, hyunits⟩ := Decimal.mul_isUnits hn (Decimal.isUnits_ofNat output)
    (ctx_holds (by omega) (by omega) hno0 (by omega)) ctx_prec
  obtain ⟨z, hz, hzunits⟩ := Decimal.add_isUnits hxunits hyunits
    (ctx_holds (by omega) (by omega) (by omega) (by omega)) ctx_prec
  obtain ⟨d, hd, hdunits⟩ := Decimal.div_isUnits hzunits k
    (ctx_holds (by omega) (by omega) (by omega) (by omega)) ctx_prec
  have hlo : -12 + 0 - (k : Int) - ((9 - k : Nat) : Int) = -21 := by omega
  have hsmall := hdunits.refine (9 - k)
  rw [hlo] at hsmall
  have hscale : (10 : Int) ^ (9 - k) ≤ 10 ^ 9 := pow_le_pow_right₀ (by norm_num) (by omega)
  refine ⟨d, ?_, ⟨_, hsmall, by positivity, ?_⟩, ?_⟩
  · rw [Price.cost, hx, ok_bind, hy, ok_bind, hz, ok_bind, hunit, hd]
  · calc (m * input + n * output) * 10 ^ (9 - k) ≤ (2 * 10 ^ 33) * 10 ^ 9 :=
          mul_le_mul (by omega) hscale (by positivity) (by positivity)
      _ = maxCost := by norm_num [maxCost]
  · rw [hdunits.toRat_eq, Governance.Price.cost]
    show _ = (price.inputPrice.exact * input + price.outputPrice.exact * output) / (price.priceUnit : ℚ)
    rw [hmexact, hnexact, hunit, add_zero, zpow_sub₀ (by norm_num), zpow_natCast]
    push_cast
    ring

/-! ### Sums -/

/-- A sum of amounts. -/
theorem add_ok {bound bound' : Int} {x y : Decimal} {q q' : ℚ} (hx : Within bound x q)
    (hy : Within bound' y q') (hsum : bound + bound' < 10 ^ 60) :
    ∃ z, Decimal.add ctx x y = .ok z ∧ Within (bound + bound') z (q + q') := by
  obtain ⟨⟨m, hm, hm0, hmle⟩, hxvalue⟩ := hx
  obtain ⟨⟨n, hn, hn0, hnle⟩, hyvalue⟩ := hy
  obtain ⟨z, hz, hzunits⟩ := Decimal.add_isUnits hm hn
    (ctx_holds (by omega) (by omega) (by omega) (by omega)) ctx_prec
  refine ⟨z, hz, ⟨_, hzunits, by omega, by omega⟩, ?_⟩
  rw [hzunits.toRat_eq, ← hxvalue, ← hyvalue, hm.toRat_eq, hn.toRat_eq]
  push_cast
  ring

variable {U : Type}

/-- The text of the cost of a price. -/
def IsCost (text : Str) : Prop :=
  ∃ (price : Price) (input output : Nat) (d : Decimal), input ≤ 10 ^ 9 ∧ output ≤ 10 ^ 9
    ∧ price.cost input output = .ok d ∧ text = d.str

/-- The costs of a row are those of prices, each of any price; a settled row has a measured cost. -/
structure Reservation.Priced (r : Reservation U) : Prop where
  cost : IsCost r.cost
  actualCost : ∀ text, r.actualCost = some text → IsCost text
  settled : r.state = .settled → r.actualCost.isSome = true

theorem isCost_str {price : Price} {input output : Nat} {d : Decimal} (hinput : input ≤ 10 ^ 9)
    (houtput : output ≤ 10 ^ 9) (hd : price.cost input output = .ok d) : IsCost d.str :=
  ⟨price, input, output, d, hinput, houtput, hd, rfl⟩

/-- A stored cost is read back. -/
theorem IsCost.read {text : Str} (h : IsCost text) :
    ∃ d, readCost (some text) = .ok d ∧ Within maxCost d (costValue text) := by
  obtain ⟨price, input, output, d, hinput, houtput, hd, rfl⟩ := h
  obtain ⟨d', hd', hwithin⟩ := cost_ok price hinput houtput
  obtain rfl := Except.ok.inj (hd.symm.trans hd')
  refine ⟨d, ?_, hwithin.units, (costValue_str d).symm⟩
  rw [readCost, Decimal.ofStr_str]

/-- The amount that a row adds to the expense. -/
theorem expense_ok {r : Reservation U} (h : r.Priced) (hstate : r.state ≠ .released) :
    ∃ d, r.expense = .ok d ∧ Within maxCost d r.exact.expense := by
  unfold Reservation.expense Governance.Reservation.expense
  have hsame : r.exact.unsettled = r.unsettled := rfl
  rw [hsame]
  by_cases hunsettled : r.unsettled = true
  · rw [if_pos hunsettled, if_pos hunsettled]
    exact h.cost.read
  · -- the row is settled
    have hsettled : r.state = .settled := by
      simpa [Reservation.unsettled, hstate] using hunsettled
    obtain ⟨text, htext⟩ := Option.isSome_iff_exists.mp (h.settled hsettled)
    rw [if_neg hunsettled, if_neg hunsettled, htext]
    have hvalue : r.exact.measuredCost = costValue text := by
      show (r.actualCost.map costValue).getD 0 = _
      rw [htext]
      rfl
    rw [hvalue]
    exact (h.actualCost text htext).read

/-- The expense of rows, from what was added up before them. -/
theorem foldlM_expense {rows : List (Reservation U)} {bound : Int} {total : Decimal} {q : ℚ}
    (hrows : ∀ r ∈ rows, r.Priced ∧ r.state ≠ .released) (htotal : Within bound total q)
    (hbound : bound + rows.length * maxCost < 10 ^ 60) :
    ∃ e, rows.foldlM (fun total r => do liftDecimal (Decimal.add ctx total (← r.expense))) total
        = .ok e
      ∧ Within (bound + rows.length * maxCost) e
        (q + ((rows.map Reservation.exact).map Governance.Reservation.expense).sum) := by
  induction rows generalizing bound total q with
  | nil => exact ⟨total, rfl, by simpa using htotal⟩
  | cons r rows ih =>
    have hr := hrows r (List.mem_cons_self ..)
    obtain ⟨d, hd, hdwithin⟩ := expense_ok hr.1 hr.2
    have hpos : 0 ≤ (rows.length : Int) * maxCost := by
      unfold maxCost
      positivity
    have hlength : ((r :: rows).length : Int) * maxCost = maxCost + rows.length * maxCost := by
      rw [List.length_cons]
      push_cast
      ring
    rw [hlength, ← add_assoc] at hbound ⊢
    obtain ⟨next, hnext, hnextwithin⟩ := add_ok htotal hdwithin (by omega)
    obtain ⟨e, he, hewithin⟩ := ih (fun r hr => hrows r (List.mem_cons_of_mem _ hr)) hnextwithin hbound
    refine ⟨e, ?_, ?_⟩
    · rw [List.foldlM_cons, hd, ok_bind, hnext]
      exact he
    · rw [List.map_cons, List.map_cons, List.sum_cons, ← add_assoc]
      exact hewithin

/-- The most reservations of a ledger. -/
def maxRows : Nat := 10 ^ 15

/-- The expense of up to `10 ^ 15` rows. -/
theorem totalExpense_ok {rows : List (Reservation U)}
    (hrows : ∀ r ∈ rows, r.Priced ∧ r.state ≠ .released) (hlength : rows.length ≤ maxRows) :
    ∃ e, totalExpense rows = .ok e ∧ Within (maxRows * maxCost) e
      ((rows.map Reservation.exact).map Governance.Reservation.expense).sum := by
  have hzero : Within 0 (.ofNat 0) 0 := by
    refine ⟨⟨0, ?_, Int.le_refl _, Int.le_refl _⟩, ?_⟩
    · exact (Decimal.isUnits_ofNat 0).refine 21
    · rw [(Decimal.isUnits_ofNat 0).toRat_eq]
      norm_num
  have hle : (rows.length : Int) * maxCost ≤ maxRows * maxCost := by
    apply mul_le_mul_of_nonneg_right _ (by norm_num [maxCost])
    exact_mod_cast hlength
  have hmax : (maxRows : Int) * maxCost < 10 ^ 60 := by norm_num [maxRows, maxCost]
  obtain ⟨e, he, ⟨n, hn, hn0, hnle⟩, hvalue⟩ := foldlM_expense hrows hzero (by omega)
  rw [zero_add] at hnle hvalue
  exact ⟨e, he, ⟨n, hn, hn0, hnle.trans hle⟩, hvalue⟩

/-- The comparison of an expense and a cost with a limit. -/
theorem overCost_ok (limits : Limits) {expense cost : Decimal} {q q' : ℚ}
    (hexpense : Within (maxRows * maxCost) expense q) (hcost : Within maxCost cost q') :
    overCost limits expense cost = .ok (decide (limits.exact.monthlyCost < q + q')) := by
  obtain ⟨z, hz, hwithin⟩ := add_ok hexpense hcost (by norm_num [maxRows, maxCost])
  rw [overCost, hz]
  show Except.ok (limits.monthlyCost.d.lt z) = _
  congr 1
  rw [Bool.eq_iff_iff, Decimal.lt_iff, hwithin.value, decide_eq_true_iff]
  exact Iff.rfl

/-! ### Decisions -/

/-- A selection of rows is the selection of their rationals. -/
theorem map_exact_filter (p : Governance.Reservation U → Bool) (rows : List (Reservation U)) :
    (rows.map Reservation.exact).filter p = (rows.filter fun r => p r.exact).map Reservation.exact :=
  List.filter_map

theorem or_ok (b c : Bool) :
    (if b = true then pure true else .ok c : Except Raised Bool) = .ok (b || c) := by
  cases b <;> rfl

/-- The limits leave room for a call on decimals when they do on rationals. -/
theorem exceeds_ok (limits : Limits) {rows : List (Reservation U)} (hrows : ∀ r ∈ rows, r.Priced)
    (hlength : rows.length ≤ maxRows) {cost : Decimal} {q : ℚ} (hcost : Within maxCost cost q)
    (workload : Llm.Workload) (tokens : Nat) (now day month : ℚ) :
    exceeds limits rows workload tokens cost now day month = .ok (Governance.exceeds limits.exact
      (rows.map Reservation.exact) workload tokens q now day month) := by
  have hspent : ∀ r ∈ (rows.filter fun r => r.state ≠ .released).filter
      (fun r => month ≤ r.created || r.unsettled), r.Priced ∧ r.state ≠ .released := by
    intro r hr
    have hr := (List.mem_filter.mp hr).1
    refine ⟨hrows r (List.mem_filter.mp hr).1, ?_⟩
    simpa using (List.mem_filter.mp hr).2
  have hfew : ((rows.filter fun r => r.state ≠ .released).filter
      (fun r => month ≤ r.created || r.unsettled)).length ≤ maxRows :=
    ((List.length_filter_le _ _).trans (List.length_filter_le _ _)).trans hlength
  obtain ⟨e, he, hewithin⟩ := totalExpense_ok hspent hfew
  rw [List.map_map] at hewithin
  unfold exceeds Governance.exceeds
  simp only [map_exact_filter, List.length_map, List.map_map]
  rw [he, ok_bind, overCost_ok limits hewithin hcost]
  -- the other limits do not depend on the amounts
  exact or_ok _ _

variable [DecidableEq U]

theorem limits_exact_evaluation : evaluationLimits.exact = Governance.evaluationLimits := by
  have hcost : evaluationCost.exact = 5 := by
    show (Decimal.mk false 500 (-2)).toRat = 5
    norm_num [Decimal.toRat, Decimal.signed]
  unfold Limits.exact evaluationLimits Governance.evaluationLimits
  simp only [hcost]

theorem select_exact (policy : QuotaPolicy U) (scope : Scope U) :
    policy.exact.select scope = ((policy.select scope).1, (policy.select scope).2.1.exact,
      (policy.select scope).2.2.exact) := by
  obtain ⟨version, owner, tenant, evaluation⟩ := policy
  unfold QuotaPolicy.exact Governance.QuotaPolicy.select QuotaPolicy.select
  cases evaluation with
  | none => rfl
  | some binding =>
    dsimp only [Option.any_some]
    by_cases hmem : scope ∈ binding.scopes
    · rw [if_pos hmem, if_pos (List.contains_iff_mem.mpr hmem), limits_exact_evaluation]
    · rw [if_neg hmem, if_neg (by simpa using hmem)]

/-- What the ledger on rationals answers, as the ledger on decimals does. -/
def lift {α : Type} : Except Governance.Raised α → Except Raised α := Except.mapError .governance

theorem price_cases (catalog : PricingCatalog) (provider model : Str) :
    (∃ e, catalog.price provider model = .error (.governance e)
      ∧ catalog.exact.price provider model = .error e)
    ∨ ∃ price, catalog.price provider model = .ok price
      ∧ catalog.exact.price provider model = .ok price.exact := by
  have hfind : (catalog.exact.prices.find? fun price => price.provider = provider ∧ price.model = model)
      = (catalog.prices.find? fun price => price.provider = provider ∧ price.model = model).map
        Price.exact := List.find?_map
  unfold Governance.PricingCatalog.price PricingCatalog.price
  rw [hfind]
  cases catalog.prices.find? fun price => price.provider = provider ∧ price.model = model with
  | none => exact .inl ⟨_, rfl, rfl⟩
  | some price => exact .inr ⟨price, rfl, rfl⟩

/-! ### `reserve` -/

variable (env : LedgerEnv U)

/-- The rows of a ledger are priced, and not too many. -/
structure Ledger.Sound (db : Ledger U) : Prop where
  priced : ∀ r ∈ db.reservations, r.Priced
  length_le : db.reservations.length ≤ maxRows

omit [DecidableEq U] in
/-- The checks of `reserve` end with the same error, or with the cost and its rational. -/
theorem checkReserve_ok (clock : Readings) (args : ReserveArgs U) :
    (∃ e, checkReserve env clock args = .error (.governance e)
      ∧ Governance.checkReserve env.exact clock args = .error e)
    ∨ ∃ d q, checkReserve env clock args = .ok d ∧ Governance.checkReserve env.exact clock args = .ok q
      ∧ Within maxCost d q ∧ IsCost d.str := by
  unfold checkReserve Governance.checkReserve
  by_cases hargs : args.principal.expires ≤ clock.expiry
      ∨ args.identity.scope ≠ (args.principal.scope env.toIds).identity env.toIds
      ∨ args.identity.attempt < 1 ∨ args.inputTokens < 0 ∨ args.outputTokens ≤ 0
      ∨ 1000000000 < args.inputTokens + args.outputTokens
  · rw [if_pos hargs, if_pos hargs]
    exact .inl ⟨_, rfl, rfl⟩
  rw [if_neg hargs, if_neg hargs]
  obtain ⟨e, hprice, hexact⟩ | ⟨price, hprice, hexact⟩ :=
    price_cases env.catalog args.identity.provider args.identity.model
  · rw [hprice, hexact]
    exact .inl ⟨e, rfl, rfl⟩
  rw [hprice, hexact, ok_bind, ok_bind]
  cases Calendar.fromTimestamp clock.date with
  | none => exact .inl ⟨_, rfl, rfl⟩
  | some date =>
    dsimp only
    by_cases hdate : ¬Json.keyLe env.catalog.effectiveDate (isoDate date)
    · rw [if_pos hdate, if_pos hdate]
      exact .inl ⟨_, rfl, rfl⟩
    rw [if_neg hdate, if_neg hdate]
    by_cases hlong : 2048 < (encoded env.toIds args.identity).length
    · rw [if_pos hlong, if_pos hlong]
      exact .inl ⟨_, rfl, rfl⟩
    rw [if_neg hlong, if_neg hlong]
    -- the counts are within the bounds of a cost
    have hinput : args.inputTokens.toNat ≤ 10 ^ 9 := by omega
    have houtput : args.outputTokens.toNat ≤ 10 ^ 9 := by omega
    obtain ⟨d, hd, hwithin⟩ := cost_ok price hinput houtput
    rw [hd]
    exact .inr ⟨d, _, rfl, rfl, hwithin, isCost_str hinput houtput hd⟩

/-- Both answers to whether the limits leave no room. -/
theorem denied_ok {db : Ledger U} (hdb : db.Sound) (args : ReserveArgs U) {cost : Decimal} {q : ℚ}
    (hcost : Within maxCost cost q) (now day month : ℚ) :
    db.denied env args cost now day month
      = .ok (db.exact.denied env.exact args q now day month) := by
  unfold Ledger.denied Governance.Ledger.denied
  simp only [select_exact]
  have hrows : ∀ r ∈ db.reservations.filter fun r => r.tenant = (args.principal.scope env.toIds).tenant,
      r.Priced := fun r hr => hdb.priced r (List.mem_filter.mp hr).1
  have hlength := (List.length_filter_le
    (fun r : Reservation U => decide (r.tenant = (args.principal.scope env.toIds).tenant))
    db.reservations).trans hdb.length_le
  rw [exceeds_ok _ hrows hlength hcost, ok_bind, exceeds_ok _ (fun r hr => hrows r (List.mem_filter.mp hr).1)
    ((List.length_filter_le _ _).trans hlength) hcost, ok_bind]
  simp only [map_exact_filter]
  rfl

/-- The bodies of a transaction on the two ledgers: they raise the same error, or answer the same and
end with the same rows, which are priced. -/
inductive Alike {α : Type} :
    Except Raised (α × Ledger U) → Except Governance.Raised (α × Governance.Ledger U) → Prop
  | error (e : Governance.Raised) : Alike (.error (.governance e)) (.error e)
  | ok (a : α) (db : Ledger U) (priced : ∀ r ∈ db.reservations, r.Priced) :
    Alike (.ok (a, db)) (.ok (a, db.exact))

omit [DecidableEq U] in
theorem event_alike {α : Type} (db : Ledger U) (hpriced : ∀ r ∈ db.reservations, r.Priced)
    (scope : Scope U) (action : String) (time : ℚ) (a : α) :
    Alike ((db.event env scope action time).map fun db => (a, db))
      ((db.exact.event env.exact scope action time).map fun db => (a, db)) := by
  unfold Ledger.event Governance.Ledger.event
  by_cases hfull : env.eventLimit ≤ db.events.length
  · rw [if_pos hfull, if_pos hfull]
    exact .error _
  · rw [if_neg hfull, if_neg hfull]
    exact .ok a { db with events := db.events ++ [⟨scope, action.toList, time⟩] } hpriced

theorem newRow_exact (args : ReserveArgs U) (ticket : U) {cost : Decimal} {q : ℚ}
    (hcost : cost.toRat = q) (now : ℚ) : (Ledger.newRow env args ticket cost now).exact
      = Governance.Ledger.newRow env.exact args ticket q now := by
  unfold Ledger.newRow Governance.Ledger.newRow Reservation.exact
  simp only [select_exact, costValue_str, hcost, Option.map_none]

omit [DecidableEq U] in
/-- A new row has a cost and no measured cost. -/
theorem priced_of_reserved {r : Reservation U} (hcost : IsCost r.cost) (hactual : r.actualCost = none)
    (hstate : r.state ≠ .settled) : r.Priced where
  cost := hcost
  actualCost := by
    intro text htext
    rw [hactual] at htext
    cases htext
  settled := fun h => absurd h hstate

theorem existing_exact (args : ReserveArgs U) (db : Ledger U) :
    db.exact.existing? env.exact args = (db.existing? env args).map Reservation.exact := by
  unfold Ledger.existing? Governance.Ledger.existing?
  exact List.find?_map

/-- The ledger with the new row: it holds the text of the cost. -/
theorem grown_exact {db : Ledger U} (hpriced : ∀ r ∈ db.reservations, r.Priced)
    (args : ReserveArgs U) (ticket : U) {cost : Decimal} {q : ℚ} (hcost : Within maxCost cost q)
    (hprice : IsCost cost.str) (now : ℚ) :
    let grown : Ledger U :=
      { db with reservations := db.reservations ++ [Ledger.newRow env args ticket cost now] }
    (∀ r ∈ grown.reservations, r.Priced) ∧ grown.exact = { db.exact with
      reservations := db.exact.reservations
        ++ [Governance.Ledger.newRow env.exact args ticket q now] } := by
  constructor
  · intro r hr
    rcases List.mem_append.mp hr with hr | hr
    · exact hpriced r hr
    · rw [List.mem_singleton.mp hr]
      exact priced_of_reserved hprice rfl (by intro h; cases h)
  · rw [← newRow_exact env args ticket hcost.value, Ledger.exact, List.map_append]
    rfl

theorem reserveBody_alike {db : Ledger U} (hdb : db.Sound) (clock : Readings) (ticket : U)
    (args : ReserveArgs U) {cost : Decimal} {q : ℚ} (hcost : Within maxCost cost q)
    (hprice : IsCost cost.str) :
    Alike (db.reserveBody env clock ticket args cost)
      (db.exact.reserveBody env.exact clock ticket args q) := by
  unfold Ledger.reserveBody Governance.Ledger.reserveBody
  rw [existing_exact]
  cases db.existing? env args with
  | some row =>
    dsimp only [Option.map_some]
    by_cases hconflict : (row.input : Int) ≠ args.inputTokens ∨ (row.output : Int) ≠ args.outputTokens
        ∨ row.workload ≠ args.workload ∨ row.identity ≠ encoded env.toIds args.identity
    · rw [if_pos hconflict]
      refine Eq.subst (motive := fun y => Alike _ y) (if_pos hconflict).symm ?_
      exact .error _
    · rw [if_neg hconflict]
      refine Eq.subst (motive := fun y => Alike _ y) (if_neg hconflict).symm ?_
      exact .ok _ db hdb.priced
  | none =>
    dsimp only [Option.map_none]
    cases Calendar.dayStart clock.now with
    | none => exact .error _
    | some day =>
      cases Calendar.monthStart clock.now with
      | none => exact .error _
      | some month =>
        dsimp only
        rw [denied_ok env hdb args hcost, ok_bind]
        by_cases hdenied : db.exact.denied env.exact args q clock.now day month = true
        · rw [if_pos hdenied, if_pos hdenied]
          exact event_alike env db hdb.priced _ _ _ _
        · rw [if_neg hdenied, if_neg hdenied]
          have htaken : (db.exact.reservations.any fun r => r.ticket = ticket)
              = db.reservations.any fun r => r.ticket = ticket := List.any_map
          rw [htaken]
          by_cases hticket : (db.reservations.any fun r => r.ticket = ticket) = true
          · rw [if_pos hticket, if_pos hticket]
            exact .error _
          · rw [if_neg hticket, if_neg hticket]
            have hgrown := grown_exact env hdb.priced args ticket hcost hprice clock.now
            have hevent := event_alike env _ hgrown.1 (args.principal.scope env.toIds) "RESERVED"
              clock.event (some ticket)
            rw [hgrown.2] at hevent
            exact hevent

/-- An answer and a ledger after a method, on the two ledgers. -/
structure Answers {α : Type} (x : Except Raised α × Ledger U)
    (y : Except Governance.Raised α × Governance.Ledger U) : Prop where
  answer : x.1 = lift y.1
  ledger : x.2.exact = y.2
  priced : ∀ r ∈ x.2.reservations, r.Priced

omit [DecidableEq U] in
theorem Alike.transact {α : Type} {db : Ledger U} (hpriced : ∀ r ∈ db.reservations, r.Priced)
    {body : Ledger U → Except Raised (α × Ledger U)}
    {body' : Governance.Ledger U → Except Governance.Raised (α × Governance.Ledger U)}
    (h : Alike (body db) (body' db.exact)) :
    Answers (transact body db) (transact body' db.exact) := by
  unfold Polymind.transact
  generalize body db = x at h
  generalize body' db.exact = y at h
  cases h with
  | error e => exact ⟨rfl, rfl, hpriced⟩
  | ok a db' hpriced' => exact ⟨rfl, rfl, hpriced'⟩

/-- `reserve` answers on decimals as it does on rationals. -/
theorem reserve_answers {db : Ledger U} (hdb : db.Sound) (clock : Readings) (ticket : U)
    (args : ReserveArgs U) :
    Answers (db.reserve env clock ticket args) (db.exact.reserve env.exact clock ticket args) := by
  unfold Ledger.reserve Governance.Ledger.reserve
  obtain ⟨e, hcheck, hexact⟩ | ⟨cost, q, hcheck, hexact, hcost, hprice⟩ := checkReserve_ok env clock args
  · rw [hcheck, hexact]
    exact ⟨rfl, rfl, hdb.priced⟩
  rw [hcheck, hexact]
  dsimp only
  have hbody := reserveBody_alike env hdb clock ticket args hcost hprice
  unfold transact
  generalize db.reserveBody env clock ticket args cost = x at hbody
  generalize db.exact.reserveBody env.exact clock ticket args q = y at hbody
  cases hbody with
  | error e => exact ⟨rfl, rfl, hdb.priced⟩
  | ok a db' hpriced =>
    cases a with
    | none => exact ⟨rfl, rfl, hpriced⟩
    | some ticket => exact ⟨rfl, rfl, hpriced⟩

/-! ### `transition` and `settle` -/

omit [DecidableEq U] in
/-- An update of rows is the update of their rationals. -/
theorem update_exact {cond : Reservation U → Bool} {set : Reservation U → Reservation U}
    {cond' : Governance.Reservation U → Bool}
    {set' : Governance.Reservation U → Governance.Reservation U} (hcond : ∀ r, cond' r.exact = cond r)
    (hset : ∀ r, set' r.exact = (set r).exact) (rows : List (Reservation U)) :
    Table.update cond' set' (rows.map Reservation.exact)
      = (Table.update cond set rows).map Reservation.exact := by
  unfold Table.update
  rw [List.map_map, List.map_map]
  apply List.map_congr_left
  intro r _
  show (if cond' r.exact then set' r.exact else r.exact) = (if cond r then set r else r).exact
  rw [hcond, hset]
  split <;> rfl

omit [DecidableEq U] in
theorem priced_update {cond : Reservation U → Bool} {set : Reservation U → Reservation U}
    {rows : List (Reservation U)} (hpriced : ∀ r ∈ rows, r.Priced)
    (hset : ∀ r ∈ rows, cond r = true → (set r).Priced) : ∀ r ∈ Table.update cond set rows, r.Priced := by
  intro r hr
  obtain ⟨r₀, hr₀, rfl⟩ := List.mem_map.mp hr
  by_cases hcond : cond r₀ = true
  · rw [if_pos hcond]
    exact hset r₀ hr₀ hcond
  · rw [if_neg hcond]
    exact hpriced r₀ hr₀

/-- No transition settles. -/
theorem allowed_ne_settled {before after : ReservationState}
    (h : Governance.Ledger.allowed before after = true) : after ≠ .settled := by
  rintro rfl
  cases before <;> cases h

theorem transition_alike {db : Ledger U} (hpriced : ∀ r ∈ db.reservations, r.Priced) (ticket : U)
    (before after : ReservationState) :
    Alike (db.transition ticket before after) (db.exact.transition ticket before after) := by
  unfold Ledger.transition Governance.Ledger.transition
  by_cases hallowed : Governance.Ledger.allowed before after = true
  · rw [if_neg (not_not_intro hallowed), if_neg (not_not_intro hallowed)]
    have hcount : (db.exact.reservations.countP fun r => r.ticket = ticket && r.state = before)
        = db.reservations.countP fun r => r.ticket = ticket && r.state = before := List.countP_map
    have hupdate : Table.update (fun r => r.ticket = ticket && r.state = before)
        (fun r => { r with state := after }) db.exact.reservations
        = (Table.update (fun r => r.ticket = ticket && r.state = before)
          (fun r => { r with state := after }) db.reservations).map Reservation.exact :=
      update_exact (fun _ => rfl) (fun _ => rfl) db.reservations
    dsimp only
    rw [hcount, hupdate]
    by_cases hone : db.reservations.countP (fun r => r.ticket = ticket && r.state = before) ≠ 1
    · rw [if_pos hone, if_pos hone]
      exact .error _
    · rw [if_neg hone, if_neg hone]
      refine .ok () { db with reservations := _ } (priced_update hpriced ?_)
      intro r hr _
      have hr := hpriced r hr
      refine ⟨hr.cost, hr.actualCost, ?_⟩
      exact fun hsettled => absurd hsettled (allowed_ne_settled hallowed)
  · rw [if_pos hallowed, if_pos hallowed]
    exact .error _

open Governance.Ledger (Counts validCount contradicts Call)

omit [DecidableEq U] in
/-- The cost of a settlement, and its rational. -/
theorem settledCost_ok {row : Reservation U} {counts : Counts} (h1 : validCount counts.1 = true)
    (h2 : validCount counts.2 = true) :
    (∃ e, Ledger.settledCost env row counts = .error (.governance e)
      ∧ Governance.Ledger.settledCost env.exact row.exact counts = .error e)
    ∨ ∃ cost : Option Decimal, Ledger.settledCost env row counts = .ok cost
      ∧ Governance.Ledger.settledCost env.exact row.exact counts = .ok (cost.map Decimal.toRat)
      ∧ ∀ d ∈ cost, IsCost d.str := by
  obtain ⟨input, output⟩ := counts
  cases input with
  | none => exact .inr ⟨none, rfl, rfl, by intro d hd; cases hd⟩
  | some input =>
    cases output with
    | none => exact .inr ⟨none, rfl, rfl, by intro d hd; cases hd⟩
    | some output =>
      unfold Ledger.settledCost Governance.Ledger.settledCost
      dsimp only
      obtain ⟨e, hprice, hexact⟩ | ⟨price, hprice, hexact⟩ :=
        price_cases env.catalog row.provider row.model
      · refine .inl ⟨e, by rw [hprice, error_bind], ?_⟩
        show (env.catalog.exact.price row.provider row.model).map _ = _
        rw [hexact]
        rfl
      · simp only [validCount, Option.all_some, decide_eq_true_eq] at h1 h2
        have hinput : input.toNat ≤ 10 ^ 9 := by omega
        have houtput : output.toNat ≤ 10 ^ 9 := by omega
        obtain ⟨d, hd, hwithin⟩ := cost_ok price hinput houtput
        refine .inr ⟨some d, by rw [hprice, ok_bind, hd]; rfl, ?_, ?_⟩
        · show (env.catalog.exact.price row.provider row.model).map _ = _
          rw [hexact, Option.map_some, hwithin.value]
          rfl
        · intro d' hd'
          obtain rfl := Option.some.inj hd'
          exact isCost_str hinput houtput hd

omit [DecidableEq U] in
theorem settledRow_exact (counts : Counts) (cost : Option Decimal) (r : Reservation U) :
    Governance.Ledger.settledRow counts (cost.map Decimal.toRat) r.exact
      = (Ledger.settledRow counts cost r).exact := by
  unfold Ledger.settledRow Governance.Ledger.settledRow Reservation.exact
  cases cost with
  | none => rfl
  | some d => simp only [Option.map_some, costValue_str, Option.isSome_some, if_true]

omit [DecidableEq U] in
theorem settledRow_priced {counts : Counts} {cost : Option Decimal} {r : Reservation U} (hr : r.Priced)
    (hcost : ∀ d ∈ cost, IsCost d.str) : (Ledger.settledRow counts cost r).Priced where
  cost := hr.cost
  actualCost := by
    intro text htext
    obtain ⟨d, hd, rfl⟩ := Option.map_eq_some_iff.mp htext
    exact hcost d hd
  settled := by
    intro hsettled
    cases cost with
    | none => cases hsettled
    | some d => rfl

/-- The settlement of a row that may be settled. -/
theorem settle_paid_alike {db : Ledger U} (hpriced : ∀ r ∈ db.reservations, r.Priced) (ticket : U)
    (row : Reservation U) {counts : Counts}
    (hcounts : ¬¬validCount counts.1 = true ∧ ¬¬validCount counts.2 = true) :
    Alike
      (Ledger.settledCost env row counts >>= fun cost => Except.ok ((), { db with
        reservations := Table.update (fun r => r.ticket = ticket) (Ledger.settledRow counts cost)
          db.reservations }))
      (Governance.Ledger.settledCost env.exact row.exact counts >>= fun cost => Except.ok ((),
        { db.exact with
          reservations := Table.update (fun r => r.ticket = ticket)
            (Governance.Ledger.settledRow counts cost) db.exact.reservations })) := by
  obtain ⟨e, hcost, hexact⟩ | ⟨cost, hcost, hexact, hprice⟩ :=
    settledCost_ok env (not_not.mp hcounts.1) (not_not.mp hcounts.2)
  · rw [hcost, hexact]
    exact .error e
  · rw [hcost, hexact, ok_bind, ok_bind]
    have hupdate : Table.update (fun r => r.ticket = ticket)
        (Governance.Ledger.settledRow counts (cost.map Decimal.toRat)) db.exact.reservations
        = (Table.update (fun r => r.ticket = ticket) (Ledger.settledRow counts cost)
          db.reservations).map Reservation.exact :=
      update_exact (fun _ => rfl) (settledRow_exact counts cost) db.reservations
    rw [hupdate]
    exact .ok () { db with reservations := _ }
      (priced_update hpriced fun r hr _ => settledRow_priced (hpriced r hr) hprice)

theorem settle_alike {db : Ledger U} (hpriced : ∀ r ∈ db.reservations, r.Priced) (ticket : U)
    (counts : Counts) : Alike (db.settle env ticket counts) (db.exact.settle env.exact ticket counts) := by
  unfold Ledger.settle Governance.Ledger.settle
  by_cases hvalid : ¬validCount counts.1 = true ∨ ¬validCount counts.2 = true
  · rw [if_pos hvalid, if_pos hvalid]
    exact .error _
  rw [if_neg hvalid, if_neg hvalid]
  have hfind : (db.exact.reservations.find? fun r => r.ticket = ticket)
      = (db.reservations.find? fun r => r.ticket = ticket).map Reservation.exact := List.find?_map
  rw [hfind]
  have hcounts := not_or.mp hvalid
  cases db.reservations.find? fun r => r.ticket = ticket with
  | none => exact .error _
  | some row =>
    dsimp only [Option.map_some]
    rw [show row.exact.state = row.state from rfl, show row.exact.actualInput = row.actualInput from rfl,
      show row.exact.actualOutput = row.actualOutput from rfl]
    have hpaid := settle_paid_alike env hpriced ticket row hcounts
    cases row.state with
    | settled =>
      dsimp only
      by_cases hsame : counts ≠ (row.actualInput.map Int.ofNat, row.actualOutput.map Int.ofNat)
      · rw [if_pos hsame, if_pos hsame]
        exact .error _
      · rw [if_neg hsame, if_neg hsame]
        exact .ok () db hpriced
    | started =>
      dsimp only
      rw [if_neg (fun h => absurd h.1 (by decide)), if_neg (fun h => absurd h.1 (by decide))]
      exact hpaid
    | unknown =>
      dsimp only
      by_cases hcontra : ReservationState.unknown = .unknown ∧ (contradicts row.actualInput counts.1 = true
          ∨ contradicts row.actualOutput counts.2 = true)
      · rw [if_pos hcontra, if_pos hcontra]
        exact .error _
      · rw [if_neg hcontra, if_neg hcontra]
        exact hpaid
    | reserved => exact .error _
    | admitting => exact .error _
    | released => exact .error _

/-! ### Runs -/

omit [DecidableEq U] in
theorem event_grows {db db' : Ledger U} {n : Nat} {scope : Scope U} {action : String} {time : ℚ}
    {a a' : Option U} (h : ((db.event env scope action time).map fun db => (a, db)) = .ok (a', db'))
    (hn : n ≤ db.reservations.length) : n ≤ db'.reservations.length := by
  obtain ⟨db₁, hevent, heq⟩ := map_eq_ok.mp h
  obtain ⟨-, rfl⟩ := Prod.mk.inj heq
  unfold Ledger.event at hevent
  obtain ⟨-, hevent⟩ := ite_error_eq_ok.mp hevent
  rw [← Except.ok.inj hevent]
  exact hn

theorem reserveBody_grows {db db' : Ledger U} {clock : Readings} {ticket : U} {args : ReserveArgs U}
    {cost : Decimal} {a : Option U} (h : db.reserveBody env clock ticket args cost = .ok (a, db')) :
    db.reservations.length ≤ db'.reservations.length := by
  unfold Ledger.reserveBody at h
  cases hexisting : db.existing? env args with
  | some row =>
    rw [hexisting] at h
    obtain ⟨-, h⟩ := ite_error_eq_ok.mp h
    obtain ⟨-, rfl⟩ := Prod.mk.inj (Except.ok.inj h)
    exact Nat.le_refl _
  | none =>
    rw [hexisting] at h
    cases hday : Calendar.dayStart clock.now with
    | none =>
      rw [hday] at h
      cases h
    | some day =>
      cases hmonth : Calendar.monthStart clock.now with
      | none =>
        rw [hday, hmonth] at h
        cases h
      | some month =>
        rw [hday, hmonth] at h
        obtain ⟨denied, -, h⟩ := bind_eq_ok.mp h
        cases denied with
        | true => exact event_grows env h (Nat.le_refl _)
        | false =>
          obtain ⟨-, h⟩ := ite_error_eq_ok.mp h
          refine event_grows env h ?_
          rw [List.length_append]
          exact Nat.le_add_right _ _

/-- No call removes a row. -/
theorem next_grows (db : Ledger U) (call : Call U) :
    db.reservations.length ≤ (db.next env call).reservations.length := by
  have hkept : ∀ {α : Type} {body : Ledger U → Except Raised (α × Ledger U)},
      (∀ a db', body db = .ok (a, db') → db.reservations.length ≤ db'.reservations.length) →
      db.reservations.length ≤ (transact body db).2.reservations.length := fun hbody =>
    transact_relates (fun db db' : Ledger U => db.reservations.length ≤ db'.reservations.length)
      (Nat.le_refl _) hbody
  cases call with
  | reserve clock ticket args =>
    show _ ≤ (db.reserve env clock ticket args).2.reservations.length
    unfold Ledger.reserve
    cases checkReserve env clock args with
    | error e => exact Nat.le_refl _
    | ok cost =>
      have h : db.reservations.length
          ≤ (transact (Ledger.reserveBody env clock ticket args cost) db).2.reservations.length :=
        hkept fun _ _ hbody => reserveBody_grows env hbody
      dsimp only
      revert h
      generalize transact (Ledger.reserveBody env clock ticket args cost) db = result
      obtain ⟨answer, db'⟩ := result
      intro h
      cases answer with
      | error e => exact h
      | ok found =>
        cases found with
        | none => exact h
        | some ticket => exact h
  | transition ticket before after =>
    refine hkept fun a db' h => ?_
    obtain ⟨-, h⟩ := ite_error_eq_ok.mp h
    obtain ⟨-, h⟩ := ite_error_eq_ok.mp h
    obtain ⟨-, rfl⟩ := Prod.mk.inj (Except.ok.inj h)
    exact Nat.le_of_eq (List.length_map ..).symm
  | settle ticket counts =>
    refine hkept fun a db' h => ?_
    unfold Ledger.settle at h
    obtain ⟨-, h⟩ := ite_error_eq_ok.mp h
    -- whatever the state of the row, the table is the same or updated
    have hpaid : ∀ {row : Reservation U}, (Ledger.settledCost env row counts >>= fun cost =>
        Except.ok ((), { db with
          reservations := Table.update (fun r => r.ticket = ticket) (Ledger.settledRow counts cost)
            db.reservations })) = .ok (a, db') →
        db.reservations.length ≤ db'.reservations.length := by
      intro row h
      obtain ⟨cost, -, h⟩ := bind_eq_ok.mp h
      obtain ⟨-, rfl⟩ := Prod.mk.inj (Except.ok.inj h)
      exact Nat.le_of_eq (List.length_map ..).symm
    cases hfind : db.reservations.find? fun r => r.ticket = ticket with
    | none =>
      rw [hfind] at h
      cases h
    | some row =>
      rw [hfind] at h
      dsimp only at h
      cases hstate : row.state with
      | settled =>
        rw [hstate] at h
        obtain ⟨-, h⟩ := ite_error_eq_ok.mp h
        obtain ⟨-, rfl⟩ := Prod.mk.inj (Except.ok.inj h)
        exact Nat.le_refl _
      | started =>
        rw [hstate] at h
        exact hpaid (ite_error_eq_ok.mp h).2
      | unknown =>
        rw [hstate] at h
        exact hpaid (ite_error_eq_ok.mp h).2
      | reserved =>
        rw [hstate] at h
        cases h
      | admitting =>
        rw [hstate] at h
        cases h
      | released =>
        rw [hstate] at h
        cases h

/-- A call keeps the rows priced, and does on decimals what it does on rationals. -/
theorem next_exact {db : Ledger U} (hdb : db.Sound) (call : Call U) :
    (db.next env call).exact = db.exact.next env.exact call
      ∧ ∀ r ∈ (db.next env call).reservations, r.Priced := by
  cases call with
  | reserve clock ticket args =>
    have h := reserve_answers env hdb clock ticket args
    exact ⟨h.ledger, h.priced⟩
  | transition ticket before after =>
    have h := (transition_alike hdb.priced ticket before after).transact hdb.priced
    exact ⟨h.ledger, h.priced⟩
  | settle ticket counts =>
    have h := (settle_alike env hdb.priced ticket counts).transact hdb.priced
    exact ⟨h.ledger, h.priced⟩

/-- The ledger after a run is sound, and on decimals what it is on rationals. -/
theorem run_exact (calls : List (Call U))
    (hlength : (Ledger.empty.run env calls).reservations.length ≤ maxRows) :
    (Ledger.empty.run env calls).Sound
      ∧ (Ledger.empty.run env calls).exact = Governance.Ledger.empty.run env.exact calls := by
  induction calls using List.reverseRecOn with
  | nil =>
    refine ⟨⟨?_, hlength⟩, rfl⟩
    intro r hr
    exact absurd hr List.not_mem_nil
  | append_singleton calls call ih =>
    have hrun : Ledger.empty.run env (calls ++ [call])
        = (Ledger.empty.run env calls).next env call := Traces.exec_append ..
    have hexact : Governance.Ledger.empty.run env.exact (calls ++ [call])
        = (Governance.Ledger.empty.run env.exact calls).next env.exact call := Traces.exec_append ..
    rw [hrun] at hlength
    obtain ⟨hsound, hbefore⟩ := ih ((next_grows env _ call).trans hlength)
    obtain ⟨hnext, hpriced⟩ := next_exact env hsound call
    rw [hrun, hexact, ← hbefore]
    exact ⟨⟨hpriced, hlength⟩, hnext⟩

/-- Every cost is the exact rational of its definition and is read back from its text; the expense of
up to `10 ^ 15` rows, each with the cost of any price, and its comparison with a limit are those of
exact arithmetic; and in every run with so many reservations `reserve` answers as the ledger on
rationals does. -/
theorem money_exact :
    (∀ (price : Price) (input output : Nat), input ≤ 10 ^ 9 → output ≤ 10 ^ 9 →
      ∃ d, price.cost input output = .ok d
        ∧ d.toRat = (price.inputPrice.d.toRat * input + price.outputPrice.d.toRat * output)
          / price.priceUnit
        ∧ Decimal.ofStr d.str = some (.finite d))
    ∧ (∀ rows : List (Reservation U), rows.length ≤ 10 ^ 15 →
      (∀ r ∈ rows, r.Priced ∧ r.state ≠ .released) →
      ∃ expense, totalExpense rows = .ok expense
        ∧ expense.toRat = (rows.map fun r => r.exact.expense).sum
        ∧ ∀ (limits : Limits) (price : Price) (input output : Nat) (cost : Decimal),
          input ≤ 10 ^ 9 → output ≤ 10 ^ 9 → price.cost input output = .ok cost →
          overCost limits expense cost
            = .ok (decide (limits.monthlyCost.d.toRat < expense.toRat + cost.toRat)))
    ∧ ∀ (calls : List (Call U)), (Ledger.empty.run env calls).reservations.length ≤ 10 ^ 15 →
      (Ledger.empty.run env calls).exact = Governance.Ledger.empty.run env.exact calls
      ∧ (∀ r ∈ (Ledger.empty.run env calls).reservations, r.Priced)
      ∧ ∀ (clock : Readings) (ticket : U) (args : ReserveArgs U),
        ((Ledger.empty.run env calls).reserve env clock ticket args).1
          = lift ((Governance.Ledger.empty.run env.exact calls).reserve env.exact clock ticket args).1 := by
  refine ⟨?_, ?_, ?_⟩
  · intro price input output hinput houtput
    obtain ⟨d, hd, hwithin⟩ := cost_ok price hinput houtput
    exact ⟨d, hd, hwithin.value, Decimal.ofStr_str d⟩
  · intro rows hlength hrows
    obtain ⟨expense, he, hewithin⟩ := totalExpense_ok hrows hlength
    rw [List.map_map] at hewithin
    refine ⟨expense, he, hewithin.value, ?_⟩
    intro limits price input output cost hinput houtput hcost
    obtain ⟨d, hd, hwithin⟩ := cost_ok price hinput houtput
    obtain rfl := Except.ok.inj (hcost.symm.trans hd)
    exact overCost_ok limits ⟨hewithin.units, rfl⟩ ⟨hwithin.units, rfl⟩
  · intro calls hlength
    obtain ⟨hsound, hexact⟩ := run_exact env calls hlength
    refine ⟨hexact, hsound.priced, ?_⟩
    intro clock ticket args
    rw [← hexact]
    exact (reserve_answers env hsound clock ticket args).answer

end Polymind.Governance.Money
