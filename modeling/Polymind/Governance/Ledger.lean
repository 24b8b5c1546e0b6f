import Polymind.Llm.Admission
import Polymind.Security.Models
import Polymind.Lib.Clock

/-!
# The governance ledger

`GovernanceLedger` of `governance/ledger.py`: the tables `reservations` and `events`, and `reserve`,
`transition` and `settle`.  The configuration row holds the policy and the catalog of the environment:
a ledger with others is refused.

An amount of money is a decimal, taken as the rational it denotes: the products, quotients and sums of
validated prices are exact at the precision of 60 digits.  A clock reading is a float, taken as the
rational it denotes.  A JSON column that is only compared holds the text.
-/

namespace Polymind.Governance

open Llm (CallIdentity Workload)

/-! ### Configuration -/

/-- A validated `Price`. -/
structure Price where
  provider : Str
  model : Str
  inputPrice : ℚ
  outputPrice : ℚ
  priceUnit : Nat
  inputPrice_nonneg : 0 ≤ inputPrice
  outputPrice_nonneg : 0 ≤ outputPrice
  priceUnit_pow : ∃ i < 10, priceUnit = 10 ^ i

/-- `Price.cost`. -/
def Price.cost (price : Price) (inputTokens outputTokens : Nat) : ℚ :=
  (price.inputPrice * inputTokens + price.outputPrice * outputTokens) / price.priceUnit

structure PricingCatalog where
  version : Str
  effectiveDate : Str
  prices : List Price

structure Limits where
  requestsPerWindow : Nat
  windowSeconds : Nat
  interactiveConcurrent : Nat
  backgroundConcurrent : Nat
  reservedTokens : Nat
  dailyTokens : Nat
  monthlyTokens : Nat
  monthlyCost : ℚ
  monthlyCost_nonneg : 0 ≤ monthlyCost

/-- The cap on the calls of a workload. -/
def Limits.cap (limits : Limits) : Workload → Nat
  | .interactive => limits.interactiveConcurrent
  | .documentBackground => limits.backgroundConcurrent

/-- The part of an `EvaluationBinding` that `select` reads; its version is fixed. -/
structure EvaluationBinding (U : Type) where
  scopes : List (Scope U)

/-- `EvaluationBinding.limits`. -/
def evaluationLimits : Limits := ⟨16, 86400, 1, 1, 112000, 500000, 1500000, 5, by decide⟩

structure QuotaPolicy (U : Type) where
  version : Str
  owner : Limits
  tenant : Limits
  evaluation : Option (EvaluationBinding U)

variable {U : Type} [DecidableEq U]

/-- `select`: the version and the limits of the owner and of the tenant. -/
def QuotaPolicy.select (policy : QuotaPolicy U) (scope : Scope U) : Str × Limits × Limits :=
  match policy.evaluation with
  | some binding =>
    if scope ∈ binding.scopes then
      ("polymind-evaluation/1".toList, evaluationLimits, evaluationLimits)
    else (policy.version, policy.owner, policy.tenant)
  | none => (policy.version, policy.owner, policy.tenant)

/-- A ledger: its configuration, and the functions of the standard library. -/
structure LedgerEnv (U : Type) extends Ids U where
  policy : QuotaPolicy U
  catalog : PricingCatalog
  eventLimit : Nat

/-! ### Tables -/

inductive ReservationState where
  | reserved | admitting | started | unknown | settled | released
deriving DecidableEq

/-- A row of `reservations`. -/
structure Reservation (U : Type) where
  ticket : U
  tenant : U
  owner : U
  identity : Str
  identityKey : Str
  workload : Workload
  policy : Str
  catalog : Str
  provider : Str
  model : Str
  input : Nat
  output : Nat
  cost : ℚ
  actualInput : Option Nat
  actualOutput : Option Nat
  actualCost : Option ℚ
  state : ReservationState
  created : ℚ

/-- A row of `events`. -/
structure EventRow (U : Type) where
  scope : Scope U
  action : Str
  time : ℚ

structure Ledger (U : Type) where
  reservations : List (Reservation U)
  events : List (EventRow U)

/-- What the methods raise: a `GovernanceError` by its category, the `SecurityError` of a full event
ledger or of a key that is taken, or the error of a date out of range. -/
inductive Raised where
  | governanceDenied | pricingUnavailable | reservationConflict
  | securityUnavailable
  | dateRange
deriving DecidableEq

namespace Reservation

variable (r : Reservation U)

/-- `unsettled`. -/
def unsettled : Bool := r.state ≠ .settled && r.state ≠ .released

/-- In one of the states that hold a slot. -/
def active : Bool := r.state = .reserved || r.state = .admitting || r.state = .started

/-- The reserved tokens. -/
def reservedTokens : Nat := r.input + r.output

/-- The measured tokens; a settled row has both counts. -/
def actualTokens : Nat := r.actualInput.getD 0 + r.actualOutput.getD 0

/-- `tokens`. -/
def tokens : Nat := if r.unsettled then r.reservedTokens else r.actualTokens

/-- The measured cost; a settled row has one. -/
def measuredCost : ℚ := r.actualCost.getD 0

/-- `Decimal(r['cost'] if unsettled(r) else r['actual_cost'])`. -/
def expense : ℚ := if r.unsettled then r.cost else r.measuredCost

end Reservation

/-! ### `reserve` -/

/-- The readings of the clock that `reserve` takes, in their order. -/
structure Readings where
  expiry : ℚ
  date : ℚ
  now : ℚ
  event : ℚ

/-- The arguments of `reserve`. -/
structure ReserveArgs (U : Type) where
  principal : Security.Principal
  identity : CallIdentity U
  inputTokens : Int
  outputTokens : Int
  workload : Workload

/-- `json.dumps(asdict(identity), …)`. -/
def encoded (ids : Ids U) (identity : CallIdentity U) : Str :=
  Json.dumps true (.record [("scope", .str identity.scope), ("job", ids.uuidJson identity.job),
    ("step", ids.uuidJson identity.step), ("attempt", .int identity.attempt),
    ("profile", .str identity.profile), ("provider", .str identity.provider),
    ("role", .str identity.role), ("model", .str identity.model),
    ("capability", .str identity.capability)])

def identityKey (ids : Ids U) (identity : CallIdentity U) : Str :=
  Json.dumps true (.arr [ids.uuidJson identity.job, ids.uuidJson identity.step,
    .int identity.attempt])

/-- `catalog.price`. -/
def PricingCatalog.price (catalog : PricingCatalog) (provider model : Str) : Except Raised Price :=
  match catalog.prices.find? fun price => price.provider = provider ∧ price.model = model with
  | some price => .ok price
  | none => .error .pricingUnavailable

/-- `strftime('%Y-%m-%d')`. -/
def isoDate (date : Nat) : Str :=
  let (year, month, day) := Calendar.ord2ymd (date / 86400000000)
  Calendar.pad 4 year ++ '-' :: (Calendar.pad 2 month ++ '-' :: Calendar.pad 2 day)

/-- The checks of `reserve` before its transaction; they end with the cost of the call. -/
def checkReserve (env : LedgerEnv U) (clock : Readings) (args : ReserveArgs U) :
    Except Raised ℚ :=
  if args.principal.expires ≤ clock.expiry
      ∨ args.identity.scope ≠ (args.principal.scope env.toIds).identity env.toIds
      ∨ args.identity.attempt < 1 ∨ args.inputTokens < 0 ∨ args.outputTokens ≤ 0
      ∨ 1000000000 < args.inputTokens + args.outputTokens then .error .governanceDenied
  else do
    let price ← env.catalog.price args.identity.provider args.identity.model
    match Calendar.fromTimestamp clock.date with
    | none => .error .dateRange
    | some date =>
      if ¬Json.keyLe env.catalog.effectiveDate (isoDate date) then .error .pricingUnavailable
      else if 2048 < (encoded env.toIds args.identity).length then .error .governanceDenied
      else .ok (price.cost args.inputTokens.toNat args.outputTokens.toNat)

/-- Whether the rows leave no room for a call under the limits. -/
def exceeds (limits : Limits) (rs : List (Reservation U)) (workload : Workload) (tokens : Nat)
    (cost now day month : ℚ) : Bool :=
  let recent := rs.filter fun r => now - limits.windowSeconds < r.created
  let spent := rs.filter fun r => r.state ≠ .released
  let active := spent.filter Reservation.active
  let current := active.filter fun r => r.workload = workload
  let expense := ((spent.filter fun r => month ≤ r.created || r.unsettled).map
    Reservation.expense).sum
  limits.requestsPerWindow ≤ recent.length || limits.cap workload ≤ current.length
    || limits.reservedTokens <
      ((spent.filter Reservation.unsettled).map Reservation.reservedTokens).sum + tokens
    || limits.dailyTokens < ((spent.filter fun r => day ≤ r.created || r.unsettled).map
      Reservation.tokens).sum + tokens
    || limits.monthlyTokens < ((spent.filter fun r => month ≤ r.created || r.unsettled).map
      Reservation.tokens).sum + tokens
    || limits.monthlyCost < expense + cost

namespace Ledger

/-- `_event`. -/
def event (env : LedgerEnv U) (db : Ledger U) (scope : Scope U) (action : String) (time : ℚ) :
    Except Raised (Ledger U) :=
  if env.eventLimit ≤ db.events.length then .error .securityUnavailable
  else .ok { db with events := db.events ++ [⟨scope, action.toList, time⟩] }

/-- The row that `reserve` inserts. -/
def newRow (env : LedgerEnv U) (args : ReserveArgs U) (ticket : U) (cost now : ℚ) : Reservation U :=
  let scope := args.principal.scope env.toIds
  { ticket
    tenant := scope.tenant
    owner := scope.owner
    identity := encoded env.toIds args.identity
    identityKey := identityKey env.toIds args.identity
    workload := args.workload
    policy := (env.policy.select scope).1
    catalog := env.catalog.version
    provider := args.identity.provider
    model := args.identity.model
    input := args.inputTokens.toNat
    output := args.outputTokens.toNat
    cost
    actualInput := none
    actualOutput := none
    actualCost := none
    state := .reserved
    created := now }

/-- The reservation that the identity of the call has already. -/
def existing? (env : LedgerEnv U) (args : ReserveArgs U) (db : Ledger U) :
    Option (Reservation U) :=
  let scope := args.principal.scope env.toIds
  db.reservations.find? fun r => r.tenant = scope.tenant ∧ r.owner = scope.owner
    ∧ r.identityKey = identityKey env.toIds args.identity

/-- Whether the limits of the tenant or of the owner leave no room for the call. -/
def denied (env : LedgerEnv U) (args : ReserveArgs U) (cost now day month : ℚ) (db : Ledger U) :
    Bool :=
  let scope := args.principal.scope env.toIds
  let (_, ownerLimits, tenantLimits) := env.policy.select scope
  let tokens := args.inputTokens.toNat + args.outputTokens.toNat
  let rows := db.reservations.filter fun r => r.tenant = scope.tenant
  exceeds tenantLimits rows args.workload tokens cost now day month ||
    exceeds ownerLimits (rows.filter fun r => r.owner = scope.owner) args.workload tokens cost now
      day month

/-- The transaction of `reserve`; a denied call commits an event and gets no ticket. -/
def reserveBody (env : LedgerEnv U) (clock : Readings) (ticket : U) (args : ReserveArgs U)
    (cost : ℚ) (db : Ledger U) : Except Raised (Option U × Ledger U) :=
  match db.existing? env args with
  | some row =>
    if (row.input : Int) ≠ args.inputTokens ∨ (row.output : Int) ≠ args.outputTokens
        ∨ row.workload ≠ args.workload ∨ row.identity ≠ encoded env.toIds args.identity then
      .error .reservationConflict
    else .ok (some row.ticket, db)
  | none =>
    match Calendar.dayStart clock.now, Calendar.monthStart clock.now with
    | some day, some month =>
      let scope := args.principal.scope env.toIds
      if db.denied env args cost clock.now day month then
        (db.event env scope "ADMISSION_DENIED" clock.event).map fun db => (none, db)
      else if db.reservations.any fun r => r.ticket = ticket then .error .securityUnavailable
      else
        ({ db with reservations := db.reservations ++ [newRow env args ticket cost clock.now] }
          |>.event env scope "RESERVED" clock.event).map fun db => (some ticket, db)
    | _, _ => .error .dateRange

/-- `reserve`; `ticket` is the fresh `uuid4`. -/
def reserve (env : LedgerEnv U) (clock : Readings) (ticket : U) (args : ReserveArgs U)
    (db : Ledger U) : Except Raised U × Ledger U :=
  match checkReserve env clock args with
  | .error e => (.error e, db)
  | .ok cost =>
    match transact (reserveBody env clock ticket args cost) db with
    | (.ok (some ticket), db) => (.ok ticket, db)
    | (.ok none, db) => (.error .governanceDenied, db)
    | (.error e, db) => (.error e, db)

/-! ### `transition` and `settle` -/

/-- The transitions that `transition` makes. -/
def allowed : ReservationState → ReservationState → Bool
  | .reserved, .admitting | .admitting, .started | .admitting, .released => true
  | _, _ => false

/-- `transition`. -/
def transition (ticket : U) (before after : ReservationState) (db : Ledger U) :
    Except Raised (Unit × Ledger U) :=
  if ¬allowed before after then .error .reservationConflict
  else
    let changes : Reservation U → Bool := fun r => r.ticket = ticket && r.state = before
    if db.reservations.countP changes ≠ 1 then .error .reservationConflict
    else .ok ((), { db with
      reservations := Table.update changes (fun r => { r with state := after }) db.reservations })

/-- What `settle` reads of a usage: `prompt_tokens` and `completion_tokens`. -/
abbrev Counts := Option Int × Option Int

/-- A count that `settle` accepts; one of another type is refused like one out of range. -/
def validCount (count : Option Int) : Bool := count.all fun v => 0 ≤ v ∧ v ≤ 1000000000

/-- `old is not None and old != new`. -/
def contradicts (old : Option Nat) (new : Option Int) : Bool :=
  old.any fun v => new ≠ some (v : Int)

/-- The row of a settlement. -/
def settledRow (counts : Counts) (cost : Option ℚ) (r : Reservation U) : Reservation U :=
  { r with
    actualInput := counts.1.map Int.toNat
    actualOutput := counts.2.map Int.toNat
    actualCost := cost
    state := if cost.isSome then .settled else .unknown }

/-- The cost of a settlement, if both counts are known. -/
def settledCost (env : LedgerEnv U) (row : Reservation U) (counts : Counts) :
    Except Raised (Option ℚ) :=
  match counts with
  | (some input, some output) =>
    (env.catalog.price row.provider row.model).map fun price =>
      some (price.cost input.toNat output.toNat)
  | _ => .ok none

/-- `settle`. -/
def settle (env : LedgerEnv U) (ticket : U) (counts : Counts) (db : Ledger U) :
    Except Raised (Unit × Ledger U) :=
  if ¬validCount counts.1 ∨ ¬validCount counts.2 then .error .reservationConflict
  else match db.reservations.find? fun r => r.ticket = ticket with
  | none => .error .reservationConflict
  | some row =>
    match row.state with
    | .settled =>
      if counts ≠ (row.actualInput.map Int.ofNat, row.actualOutput.map Int.ofNat) then
        .error .reservationConflict
      else .ok ((), db)
    | .started | .unknown =>
      if row.state = .unknown ∧
          (contradicts row.actualInput counts.1 ∨ contradicts row.actualOutput counts.2) then
        .error .reservationConflict
      else do
        let cost ← settledCost env row counts
        return ((), { db with
          reservations := Table.update (fun r => r.ticket = ticket) (settledRow counts cost)
            db.reservations })
    | _ => .error .reservationConflict

/-! ### Calls -/

/-- A call of one of the methods. -/
inductive Call (U : Type) where
  | reserve (clock : Readings) (ticket : U) (args : ReserveArgs U)
  | transition (ticket : U) (before after : ReservationState)
  | settle (ticket : U) (counts : Counts)

/-- The ledger after a call. -/
def next (env : LedgerEnv U) (db : Ledger U) : Call U → Ledger U
  | .reserve clock ticket args => (db.reserve env clock ticket args).2
  | .transition ticket before after => (transact (transition ticket before after) db).2
  | .settle ticket counts => (transact (settle env ticket counts) db).2

def empty : Ledger U := ⟨[], []⟩

/-- The ledger after a sequence of calls. -/
def run (env : LedgerEnv U) (db : Ledger U) (calls : List (Call U)) : Ledger U :=
  Traces.exec (next env) db calls

end Ledger

end Polymind.Governance
