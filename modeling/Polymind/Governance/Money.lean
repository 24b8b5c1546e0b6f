import Polymind.Governance.Ledger
import Polymind.Lib.DecimalText

/-!
# The money of the governance ledger

`money`, `Price.cost` and the ledger of `governance/ledger.py` with its amounts as the code has them:
prices and limits are decimals, `cost` computes with the precision of 60 digits, a row holds the text
of its cost, and `reserve` adds up the decimals of the texts.  Whatever is not an amount is as in
`Polymind.Governance.Ledger`, where the amounts are rationals.
-/

namespace Polymind.Governance.Money

open Llm (CallIdentity Workload)
open Decimal (Signal Number)

/-! ### Amounts -/

/-- What `money` raises. -/
inductive MoneyError where
  | valueError (message : String)
  | invalidOperation

/-- What `money` is given: a float, a bool, a text, or a number that `Decimal` takes as it is. -/
inductive Value where
  | float
  | bool
  | text (s : Str)
  | number (n : Number)

/-- An amount that `money` returns. -/
structure Amount where
  d : Decimal
  nonneg : d.lt (.ofNat 0) = false
  le_max : (Decimal.ofNat 1000000000000).lt d = false
  le_exp : -12 ≤ d.exp

/-- The checks of `money` on a number. -/
def checkAmount : Number → Except MoneyError Amount
  | .finite d =>
    if h : d.lt (.ofNat 0) = false ∧ (Decimal.ofNat 1000000000000).lt d = false ∧ -12 ≤ d.exp then
      .ok ⟨d, h.1, h.2.1, h.2.2⟩
    else .error (.valueError "Invalid decimal amount")
  | _ => .error (.valueError "Invalid decimal amount")

/-- `money`. -/
def money : Value → Except MoneyError Amount
  | .float | .bool => .error (.valueError "Decimal strings required")
  | .text s =>
    match Decimal.ofStr s with
    | some n => checkAmount n
    | none => .error .invalidOperation
  | .number n => checkAmount n

/-! ### Prices -/

/-- A validated `Price`. -/
structure Price where
  provider : Str
  model : Str
  inputPrice : Amount
  outputPrice : Amount
  priceUnit : Nat
  priceUnit_pow : ∃ i < 10, priceUnit = 10 ^ i

/-- `decimal_unit`; the bounds of the field leave out no power of ten. -/
def decimalUnit (value : Int) : Except MoneyError {unit : Nat // ∃ i < 10, unit = 10 ^ i} :=
  if h : ∃ i < 10, value.toNat = 10 ^ i then .ok ⟨value.toNat, h⟩
  else .error (.valueError "Price unit must be a decimal power of ten")

/-- `Price(…)`, of a provider and a model that match their patterns. -/
def Price.validate (provider model : Str) (inputPrice outputPrice : Value) (priceUnit : Int) :
    Except MoneyError Price := do
  let inputPrice ← money inputPrice
  let outputPrice ← money outputPrice
  let unit ← decimalUnit priceUnit
  return ⟨provider, model, inputPrice, outputPrice, unit.1, unit.2⟩

/-- `ctx.prec = 60`. -/
def ctx : Decimal.Context := .localcontext 60

/-- `Price.cost`. -/
def Price.cost (price : Price) (inputTokens outputTokens : Nat) : Except Signal Decimal := do
  let input ← Decimal.mul ctx price.inputPrice.d (.ofNat inputTokens)
  let output ← Decimal.mul ctx price.outputPrice.d (.ofNat outputTokens)
  let total ← Decimal.add ctx input output
  Decimal.div ctx total (.ofNat price.priceUnit)

structure PricingCatalog where
  version : Str
  effectiveDate : Str
  prices : List Price

structure Limits where
  requestsPerWindow : Nat
  windowSeconds : Nat
  interactiveConcurrent : Nat
  backgroundConcurrent : Nat
  reservedTokens : Nat
  dailyTokens : Nat
  monthlyTokens : Nat
  monthlyCost : Amount

/-- The cap on the calls of a workload. -/
def Limits.cap (limits : Limits) : Workload → Nat
  | .interactive => limits.interactiveConcurrent
  | .documentBackground => limits.backgroundConcurrent

theorem evaluation_cost_nonneg : (Decimal.mk false 500 (-2)).lt (.ofNat 0) = false := by decide

theorem evaluation_cost_le_max :
    (Decimal.ofNat 1000000000000).lt (Decimal.mk false 500 (-2)) = false := by decide

theorem evaluation_cost_le_exp : -12 ≤ (Decimal.mk false 500 (-2)).exp := by decide

/-- The amount `'5.00'`. -/
def evaluationCost : Amount :=
  ⟨⟨false, 500, -2⟩, evaluation_cost_nonneg, evaluation_cost_le_max, evaluation_cost_le_exp⟩

/-- It is what `money` makes of the text. -/
example : (money (.text "5.00".toList)).toOption.map Amount.d = some evaluationCost.d := by decide

/-- `EvaluationBinding.limits`. -/
def evaluationLimits : Limits := ⟨16, 86400, 1, 1, 112000, 500000, 1500000, evaluationCost⟩

structure QuotaPolicy (U : Type) where
  version : Str
  owner : Limits
  tenant : Limits
  evaluation : Option (EvaluationBinding U)

variable {U : Type} [DecidableEq U]

/-- `select`: the version and the limits of the owner and of the tenant. -/
def QuotaPolicy.select (policy : QuotaPolicy U) (scope : Scope U) : Str × Limits × Limits :=
  if policy.evaluation.any fun binding => binding.scopes.contains scope then
    ("polymind-evaluation/1".toList, evaluationLimits, evaluationLimits)
  else (policy.version, policy.owner, policy.tenant)

/-- A ledger: its configuration, and the functions of the standard library. -/
structure LedgerEnv (U : Type) extends Ids U where
  policy : QuotaPolicy U
  catalog : PricingCatalog
  eventLimit : Nat

/-! ### Tables -/

/-- A row of `reservations`; the costs are texts. -/
structure Reservation (U : Type) where
  ticket : U
  tenant : U
  owner : U
  identity : Str
  identityKey : Str
  workload : Workload
  policy : Str
  catalog : Str
  provider : Str
  model : Str
  input : Nat
  output : Nat
  cost : Str
  actualInput : Option Nat
  actualOutput : Option Nat
  actualCost : Option Str
  state : ReservationState
  created : ℚ

structure Ledger (U : Type) where
  reservations : List (Reservation U)
  events : List (EventRow U)

/-- What the methods raise: an error of the ledger, a signal of the decimals, or the error of a cost
that is no finite number. -/
inductive Raised where
  | governance (e : Governance.Raised)
  | decimal (e : Signal)
  | unreadable

/-- A computation with decimals within a method. -/
def liftDecimal {α : Type} : Except Signal α → Except Raised α
  | .ok a => .ok a
  | .error e => .error (.decimal e)

/-- `Decimal(text)` of a column. -/
def readCost : Option Str → Except Raised Decimal
  | some text =>
    match Decimal.ofStr text with
    | some (.finite d) => .ok d
    | _ => .error .unreadable
  | none => .error .unreadable

namespace Reservation

variable (r : Reservation U)

/-- `unsettled`. -/
def unsettled : Bool := r.state ≠ .settled && r.state ≠ .released

/-- In one of the states that hold a slot. -/
def active : Bool := r.state = .reserved || r.state = .admitting || r.state = .started

def reservedTokens : Nat := r.input + r.output

def actualTokens : Nat := r.actualInput.getD 0 + r.actualOutput.getD 0

/-- `tokens`. -/
def tokens : Nat := if r.unsettled then r.reservedTokens else r.actualTokens

/-- `Decimal(r['cost'] if unsettled(r) else r['actual_cost'])`. -/
def expense : Except Raised Decimal := readCost (if r.unsettled then some r.cost else r.actualCost)

end Reservation

/-! ### `reserve` -/

/-- `catalog.price`. -/
def PricingCatalog.price (catalog : PricingCatalog) (provider model : Str) : Except Raised Price :=
  match catalog.prices.find? fun price => price.provider = provider ∧ price.model = model with
  | some price => .ok price
  | none => .error (.governance .pricingUnavailable)

/-- The checks of `reserve` before its transaction; they end with the cost of the call. -/
def checkReserve (env : LedgerEnv U) (clock : Readings) (args : ReserveArgs U) :
    Except Raised Decimal :=
  if args.principal.expires ≤ clock.expiry
      ∨ args.identity.scope ≠ (args.principal.scope env.toIds).identity env.toIds
      ∨ args.identity.attempt < 1 ∨ args.inputTokens < 0 ∨ args.outputTokens ≤ 0
      ∨ 1000000000 < args.inputTokens + args.outputTokens then .error (.governance .governanceDenied)
  else do
    let price ← env.catalog.price args.identity.provider args.identity.model
    match Calendar.fromTimestamp clock.date with
    | none => .error (.governance .dateRange)
    | some date =>
      if ¬Json.keyLe env.catalog.effectiveDate (isoDate date) then
        .error (.governance .pricingUnavailable)
      else if 2048 < (encoded env.toIds args.identity).length then
        .error (.governance .governanceDenied)
      else liftDecimal (price.cost args.inputTokens.toNat args.outputTokens.toNat)

/-- `sum((Decimal(…) for r in rows), Decimal(0))`. -/
def totalExpense (rows : List (Reservation U)) : Except Raised Decimal :=
  rows.foldlM (fun total r => do liftDecimal (Decimal.add ctx total (← r.expense))) (.ofNat 0)

/-- `expense + cost > limits.monthly_cost`. -/
def overCost (limits : Limits) (expense cost : Decimal) : Except Raised Bool := do
  let total ← liftDecimal (Decimal.add ctx expense cost)
  return limits.monthlyCost.d.lt total

/-- Whether the rows leave no room for a call under the limits. -/
def exceeds (limits : Limits) (rs : List (Reservation U)) (workload : Workload) (tokens : Nat)
    (cost : Decimal) (now day month : ℚ) : Except Raised Bool := do
  let recent := rs.filter fun r => now - limits.windowSeconds < r.created
  let spent := rs.filter fun r => r.state ≠ .released
  let active := spent.filter Reservation.active
  let current := active.filter fun r => r.workload = workload
  let expense ← totalExpense (spent.filter fun r => month ≤ r.created || r.unsettled)
  if limits.requestsPerWindow ≤ recent.length || limits.cap workload ≤ current.length
    || limits.reservedTokens <
      ((spent.filter Reservation.unsettled).map Reservation.reservedTokens).sum + tokens
    || limits.dailyTokens < ((spent.filter fun r => day ≤ r.created || r.unsettled).map
      Reservation.tokens).sum + tokens
    || limits.monthlyTokens < ((spent.filter fun r => month ≤ r.created || r.unsettled).map
      Reservation.tokens).sum + tokens then return true
  else overCost limits expense cost

namespace Ledger

/-- `_event`. -/
def event (env : LedgerEnv U) (db : Ledger U) (scope : Scope U) (action : String) (time : ℚ) :
    Except Raised (Ledger U) :=
  if env.eventLimit ≤ db.events.length then .error (.governance .securityUnavailable)
  else .ok { db with events := db.events ++ [⟨scope, action.toList, time⟩] }

/-- The row that `reserve` inserts. -/
def newRow (env : LedgerEnv U) (args : ReserveArgs U) (ticket : U) (cost : Decimal) (now : ℚ) :
    Reservation U :=
  let scope := args.principal.scope env.toIds
  { ticket
    tenant := scope.tenant
    owner := scope.owner
    identity := encoded env.toIds args.identity
    identityKey := identityKey env.toIds args.identity
    workload := args.workload
    policy := (env.policy.select scope).1
    catalog := env.catalog.version
    provider := args.identity.provider
    model := args.identity.model
    input := args.inputTokens.toNat
    output := args.outputTokens.toNat
    cost := cost.str
    actualInput := none
    actualOutput := none
    actualCost := none
    state := .reserved
    created := now }

/-- The reservation that the identity of the call has already. -/
def existing? (env : LedgerEnv U) (args : ReserveArgs U) (db : Ledger U) :
    Option (Reservation U) :=
  let scope := args.principal.scope env.toIds
  db.reservations.find? fun r => r.tenant = scope.tenant ∧ r.owner = scope.owner
    ∧ r.identityKey = identityKey env.toIds args.identity

/-- Whether the limits of the tenant or of the owner leave no room for the call; both are
evaluated. -/
def denied (env : LedgerEnv U) (args : ReserveArgs U) (cost : Decimal) (now day month : ℚ)
    (db : Ledger U) : Except Raised Bool := do
  let scope := args.principal.scope env.toIds
  let (_, ownerLimits, tenantLimits) := env.policy.select scope
  let tokens := args.inputTokens.toNat + args.outputTokens.toNat
  let rows := db.reservations.filter fun r => r.tenant = scope.tenant
  let tenant ← exceeds tenantLimits rows args.workload tokens cost now day month
  let owner ← exceeds ownerLimits (rows.filter fun r => r.owner = scope.owner) args.workload tokens
    cost now day month
  return tenant || owner

/-- The transaction of `reserve`; a denied call commits an event and gets no ticket. -/
def reserveBody (env : LedgerEnv U) (clock : Readings) (ticket : U) (args : ReserveArgs U)
    (cost : Decimal) (db : Ledger U) : Except Raised (Option U × Ledger U) :=
  match db.existing? env args with
  | some row =>
    if (row.input : Int) ≠ args.inputTokens ∨ (row.output : Int) ≠ args.outputTokens
        ∨ row.workload ≠ args.workload ∨ row.identity ≠ encoded env.toIds args.identity then
      .error (.governance .reservationConflict)
    else .ok (some row.ticket, db)
  | none =>
    match Calendar.dayStart clock.now, Calendar.monthStart clock.now with
    | some day, some month => do
      let scope := args.principal.scope env.toIds
      if ← db.denied env args cost clock.now day month then
        (db.event env scope "ADMISSION_DENIED" clock.event).map fun db => (none, db)
      else if db.reservations.any fun r => r.ticket = ticket then
        .error (.governance .securityUnavailable)
      else
        ({ db with reservations := db.reservations ++ [newRow env args ticket cost clock.now] }
          |>.event env scope "RESERVED" clock.event).map fun db => (some ticket, db)
    | _, _ => .error (.governance .dateRange)

/-- `reserve`; `ticket` is the fresh `uuid4`. -/
def reserve (env : LedgerEnv U) (clock : Readings) (ticket : U) (args : ReserveArgs U)
    (db : Ledger U) : Except Raised U × Ledger U :=
  match checkReserve env clock args with
  | .error e => (.error e, db)
  | .ok cost =>
    match transact (reserveBody env clock ticket args cost) db with
    | (.ok (some ticket), db) => (.ok ticket, db)
    | (.ok none, db) => (.error (.governance .governanceDenied), db)
    | (.error e, db) => (.error e, db)

/-! ### `transition` and `settle` -/

/-- `transition`. -/
def transition (ticket : U) (before after : ReservationState) (db : Ledger U) :
    Except Raised (Unit × Ledger U) :=
  if ¬Governance.Ledger.allowed before after then .error (.governance .reservationConflict)
  else
    let changes : Reservation U → Bool := fun r => r.ticket = ticket && r.state = before
    if db.reservations.countP changes ≠ 1 then .error (.governance .reservationConflict)
    else .ok ((), { db with
      reservations := Table.update changes (fun r => { r with state := after }) db.reservations })

open Governance.Ledger (Counts validCount contradicts Call)

/-- The row of a settlement. -/
def settledRow (counts : Counts) (cost : Option Decimal) (r : Reservation U) : Reservation U :=
  { r with
    actualInput := counts.1.map Int.toNat
    actualOutput := counts.2.map Int.toNat
    actualCost := cost.map Decimal.str
    state := if cost.isSome then .settled else .unknown }

/-- The cost of a settlement, if both counts are known. -/
def settledCost (env : LedgerEnv U) (row : Reservation U) (counts : Counts) :
    Except Raised (Option Decimal) :=
  match counts with
  | (some input, some output) => do
    let price ← env.catalog.price row.provider row.model
    (liftDecimal (price.cost input.toNat output.toNat)).map some
  | _ => .ok none

/-- `settle`. -/
def settle (env : LedgerEnv U) (ticket : U) (counts : Counts) (db : Ledger U) :
    Except Raised (Unit × Ledger U) :=
  if ¬validCount counts.1 ∨ ¬validCount counts.2 then .error (.governance .reservationConflict)
  else match db.reservations.find? fun r => r.ticket = ticket with
  | none => .error (.governance .reservationConflict)
  | some row =>
    match row.state with
    | .settled =>
      if counts ≠ (row.actualInput.map Int.ofNat, row.actualOutput.map Int.ofNat) then
        .error (.governance .reservationConflict)
      else .ok ((), db)
    | .started | .unknown =>
      if row.state = .unknown ∧
          (contradicts row.actualInput counts.1 ∨ contradicts row.actualOutput counts.2) then
        .error (.governance .reservationConflict)
      else do
        let cost ← settledCost env row counts
        return ((), { db with
          reservations := Table.update (fun r => r.ticket = ticket) (settledRow counts cost)
            db.reservations })
    | _ => .error (.governance .reservationConflict)

/-! ### Calls -/

/-- The ledger after a call. -/
def next (env : LedgerEnv U) (db : Ledger U) : Call U → Ledger U
  | .reserve clock ticket args => (db.reserve env clock ticket args).2
  | .transition ticket before after => (transact (transition ticket before after) db).2
  | .settle ticket counts => (transact (settle env ticket counts) db).2

def empty : Ledger U := ⟨[], []⟩

/-- The ledger after a sequence of calls. -/
def run (env : LedgerEnv U) (db : Ledger U) (calls : List (Call U)) : Ledger U :=
  Traces.exec (next env) db calls

end Ledger

end Polymind.Governance.Money
