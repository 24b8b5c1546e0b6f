import Polymind.Governance.Equiv.Calls
import Polymind.Lib.Load
import Mathlib.Algebra.Order.Field.Basic

/-!
# Governance budgets

A class of reservations is the rows of a tenant, or of an owner in it.

* `exceeds_eq_false_iff`: what an admitted call finds, as loads of its class;
* `Kept`: the invariant: while a row is unsettled its reserved amount counts, afterwards the smaller of
  its measured and reserved amounts;
* `budgets_kept`: the limits as the ledger counts them, over any sequence of calls.
-/

namespace Polymind.Governance

open Traces Ledger
open Llm (Workload)

variable {U : Type}

namespace Reservation

/-! ### Classes and amounts -/

/-- In the period that starts at `start`, or still unsettled; and not released. -/
def inPeriod (start : ℚ) (r : Reservation U) : Bool :=
  r.state ≠ .released && (start ≤ r.created || r.unsettled)

/-- Holding a slot of the workload. -/
def holds (workload : Workload) (r : Reservation U) : Bool := r.active && r.workload = workload

section amounts

variable {M : Type} [LinearOrder M] (reserved measured : Reservation U → M)

/-- The amount that `reserve` counts for a row. -/
def counted (r : Reservation U) : M := if r.unsettled then reserved r else measured r

/-- The part of it that was reserved. -/
def covered (r : Reservation U) : M :=
  if r.unsettled then reserved r else min (measured r) (reserved r)

variable {reserved measured}

theorem covered_le_counted (r : Reservation U) : covered reserved measured r ≤ counted reserved measured r := by
  unfold covered counted
  split
  · exact le_refl _
  · exact min_le_left _ _

theorem covered_le_reserved (r : Reservation U) : covered reserved measured r ≤ reserved r := by
  unfold covered
  split
  · exact le_refl _
  · exact min_le_right _ _

theorem covered_nonneg [Zero M] {r : Reservation U} (hr : 0 ≤ reserved r) (hm : 0 ≤ measured r) :
    0 ≤ covered reserved measured r := by
  unfold covered
  split
  · exact hr
  · exact le_min hm hr

end amounts

end Reservation

open Reservation

/-! ### What an admitted call finds -/

/-- The room for a call in a class of rows. -/
structure Room (limits : Limits) (among : Reservation U → Bool) (workload : Workload) (tokens : Nat)
    (cost now day month : ℚ) (rows : List (Reservation U)) : Prop where
  requests : load (fun _ => 1) (fun r => decide (now - limits.windowSeconds < r.created) && among r)
    rows + 1 ≤ limits.requestsPerWindow
  slots : load (fun _ => 1) (fun r => among r && r.holds workload) rows + 1 ≤ limits.cap workload
  reserved : load reservedTokens (fun r => among r && r.unsettled) rows + tokens
    ≤ limits.reservedTokens
  daily : load Reservation.tokens (fun r => among r && r.inPeriod day) rows + tokens
    ≤ limits.dailyTokens
  monthly : load Reservation.tokens (fun r => among r && r.inPeriod month) rows + tokens
    ≤ limits.monthlyTokens
  cost : load expense (fun r => among r && r.inPeriod month) rows + cost ≤ limits.monthlyCost

theorem unsettled_not_released {r : Reservation U} :
    (decide (r.state ≠ .released) && r.unsettled) = r.unsettled := by
  unfold unsettled
  cases r.state <;> rfl

theorem active_not_released {r : Reservation U} :
    (decide (r.state ≠ .released) && r.active) = r.active := by
  unfold active
  cases r.state <;> rfl

/-- A call is not over the limits if there is room for it. -/
theorem exceeds_eq_false_iff {limits : Limits} {among : Reservation U → Bool} {workload : Workload}
    {tokens : Nat} {cost now day month : ℚ} {rows : List (Reservation U)} :
    exceeds limits (rows.filter among) workload tokens cost now day month = false ↔
      Room limits among workload tokens cost now day month rows := by
  -- the classes of the code
  have hslots : (fun r : Reservation U => ((among r && decide (r.state ≠ .released)) && r.active)
      && decide (r.workload = workload)) = fun r => among r && r.holds workload := by
    funext r
    rw [Bool.and_assoc (among r), active_not_released, Bool.and_assoc]
    rfl
  have hreserved : (fun r : Reservation U => (among r && decide (r.state ≠ .released)) && r.unsettled)
      = fun r => among r && r.unsettled := by
    funext r
    rw [Bool.and_assoc, unsettled_not_released]
  have hperiod : ∀ start : ℚ, (fun r : Reservation U => (among r && decide (r.state ≠ .released))
      && (decide (start ≤ r.created) || r.unsettled)) = fun r => among r && r.inPeriod start := by
    intro start
    funext r
    rw [Bool.and_assoc]
    rfl
  have hrequests : (fun r : Reservation U => among r && decide (now - limits.windowSeconds < r.created))
      = fun r => decide (now - limits.windowSeconds < r.created) && among r := by
    funext r
    exact Bool.and_comm ..
  unfold exceeds
  simp only [filter_filter_and, length_filter_eq_load, Bool.or_eq_false_iff,
    decide_eq_false_iff_not, not_le, not_lt, hslots, hreserved, hperiod, hrequests]
  constructor
  · rintro ⟨⟨⟨⟨⟨h1, h2⟩, h3⟩, h4⟩, h5⟩, h6⟩
    exact ⟨h1, h2, h3, h4, h5, h6⟩
  · rintro ⟨h1, h2, h3, h4, h5, h6⟩
    exact ⟨⟨⟨⟨⟨h1, h2⟩, h3⟩, h4⟩, h5⟩, h6⟩

/-! ### The invariant -/

/-- The covered amounts of the current period are within the limit. -/
def Capped {M : Type} [AddCommMonoid M] [LinearOrder M] (reserved measured : Reservation U → M)
    (among : Reservation U → Bool) (start : ℚ → Option ℚ) (t : ℚ) (limit : M)
    (rows : List (Reservation U)) : Prop :=
  ∀ s, start t = some s → load (covered reserved measured) (fun r => among r && r.inPeriod s) rows ≤ limit

/-- What a class of rows keeps, at every time from the last clock reading on. -/
structure Kept (limits : Limits) (among : Reservation U → Bool) (t : ℚ) (rows : List (Reservation U)) :
    Prop where
  reserved : load reservedTokens (fun r => among r && r.unsettled) rows ≤ limits.reservedTokens
  slots : ∀ workload, load (fun _ => 1) (fun r => among r && r.holds workload) rows ≤ limits.cap workload
  window : Windowed (fun _ => 1) among Reservation.created (limits.windowSeconds : ℚ)
    limits.requestsPerWindow rows
  daily : Capped reservedTokens actualTokens among Calendar.dayStart t limits.dailyTokens rows
  monthly : Capped reservedTokens actualTokens among Calendar.monthStart t limits.monthlyTokens rows
  cost : Capped Reservation.cost measuredCost among Calendar.monthStart t limits.monthlyCost rows

theorem Kept.nil (limits : Limits) (among : Reservation U → Bool) (t : ℚ) : Kept limits among t [] := by
  constructor
  · exact Nat.zero_le _
  · intro workload
    exact Nat.zero_le _
  · intro s
    exact Nat.zero_le _
  · intro s _
    exact Nat.zero_le _
  · intro s _
    exact Nat.zero_le _
  · intro s _
    exact limits.monthlyCost_nonneg

/-- Every amount of the rows is nonnegative. -/
def Priced (rows : List (Reservation U)) : Prop := ∀ r ∈ rows, 0 ≤ r.cost ∧ 0 ≤ r.measuredCost

section insertion

variable {limits : Limits} {among : Reservation U → Bool} {t : ℚ} {rows : List (Reservation U)}
  {row : Reservation U}

/-- A later period has no row of the old ones that an earlier period has not. -/
theorem inPeriod_mono {r : Reservation U} {s s' : ℚ} (hs : s ≤ s') (h : r.inPeriod s' = true) :
    r.inPeriod s = true := by
  unfold inPeriod at h ⊢
  simp only [Bool.and_eq_true, Bool.or_eq_true, decide_eq_true_eq] at h ⊢
  exact ⟨h.1, h.2.imp_left hs.trans⟩

theorem capped_insert {M : Type} [AddCommMonoid M] [LinearOrder M] [IsOrderedAddMonoid M]
    {reserved measured : Reservation U → M} {start : Nat → Nat} (hstart : Monotone start) {limit : M}
    (h : Capped reserved measured among
      (fun t => (Calendar.fromTimestamp t).map fun date => Calendar.timestamp (start date)) t limit rows)
    (hnonneg : ∀ r ∈ rows, 0 ≤ reserved r ∧ 0 ≤ measured r) {s : ℚ} (hle : row.created ≤ t)
    (hs : (Calendar.fromTimestamp row.created).map (fun date => Calendar.timestamp (start date)) = some s)
    (hroom : among row = true → load (counted reserved measured) (fun r => among r && r.inPeriod s) rows
      + reserved row ≤ limit) :
    Capped reserved measured among
      (fun t => (Calendar.fromTimestamp t).map fun date => Calendar.timestamp (start date)) t limit
      (rows ++ [row]) := by
  intro s' hs'
  rw [load_insert]
  split
  · next hin =>
    rw [Bool.and_eq_true] at hin
    -- the rows of the period of `t` are among those of the period that the call found
    have hsub : load (covered reserved measured) (fun r => among r && r.inPeriod s') rows
        ≤ load (covered reserved measured) (fun r => among r && r.inPeriod s) rows := by
      apply load_mono
      · intro r _ hr
        rw [Bool.and_eq_true] at hr ⊢
        exact ⟨hr.1, inPeriod_mono (Calendar.periodStart_mono hstart hle hs hs') hr.2⟩
      · intro r hr
        exact covered_nonneg (hnonneg r hr).1 (hnonneg r hr).2
    have hcount : load (covered reserved measured) (fun r => among r && r.inPeriod s) rows
        ≤ load (counted reserved measured) (fun r => among r && r.inPeriod s) rows := by
      apply load_le_load
      intro r _
      split
      · exact covered_le_counted r
      · exact le_refl _
    exact le_trans (add_le_add (hsub.trans hcount) (covered_le_reserved row)) (hroom hin.1)
  · rw [add_zero]
    exact h s' hs'

theorem kept_insert (h : Kept limits among t rows) (hpriced : Priced rows) {day month : ℚ}
    (hle : row.created ≤ t) (hday : Calendar.dayStart row.created = some day)
    (hmonth : Calendar.monthStart row.created = some month)
    (hroom : among row = true → Room limits among row.workload row.reservedTokens row.cost row.created
      day month rows) : Kept limits among t (rows ++ [row]) := by
  constructor
  · rw [load_insert]
    split
    · next hin =>
      exact (hroom (Bool.and_eq_true_iff.mp hin).1).reserved
    · exact h.reserved
  · intro workload
    rw [load_insert]
    split
    · next hin =>
      unfold holds at hin
      simp only [Bool.and_eq_true, decide_eq_true_eq] at hin
      obtain ⟨hamong, -, rfl⟩ := hin
      exact (hroom hamong).slots
    · exact h.slots workload
  · exact windowed_append h.window (fun _ _ => Nat.zero_le _) fun hin => (hroom hin).requests
  · exact capped_insert Calendar.startOfDay_mono h.daily
      (fun _ _ => ⟨Nat.zero_le _, Nat.zero_le _⟩) hle hday fun hin => (hroom hin).daily
  · exact capped_insert Calendar.startOfMonth_mono h.monthly
      (fun _ _ => ⟨Nat.zero_le _, Nat.zero_le _⟩) hle hmonth fun hin => (hroom hin).monthly
  · exact capped_insert Calendar.startOfMonth_mono h.cost hpriced hle hmonth
      fun hin => (hroom hin).cost

end insertion

/-! ### Updates -/

/-- The update of an unsettled row: it keeps what was reserved, and gives no slot. -/
structure Lowers (r r' : Reservation U) : Prop where
  unsettled : r.unsettled = true
  tenant : r'.tenant = r.tenant
  owner : r'.owner = r.owner
  workload : r'.workload = r.workload
  created : r'.created = r.created
  tokens : r'.reservedTokens = r.reservedTokens
  cost : r'.cost = r.cost
  active : r'.active = true → r.active = true
  measured : 0 ≤ r'.measuredCost

theorem lowers_transition {r : Reservation U} {before after : ReservationState}
    (hallowed : allowed before after = true) (hstate : r.state = before) (hpriced : 0 ≤ r.measuredCost) :
    Lowers r { r with state := after } := by
  have hbefore : before = .reserved ∨ before = .admitting := by
    cases before <;> cases after <;> simp [allowed] at hallowed ⊢
  constructor
  · unfold unsettled
    rcases hbefore with rfl | rfl <;> rw [hstate] <;> rfl
  · rfl
  · rfl
  · rfl
  · rfl
  · rfl
  · rfl
  · intro _
    unfold active
    rcases hbefore with rfl | rfl <;> rw [hstate] <;> rfl
  · exact hpriced

theorem cost_nonneg (price : Price) (input output : Nat) : 0 ≤ price.cost input output := by
  unfold Price.cost
  have hi := mul_nonneg price.inputPrice_nonneg (Nat.cast_nonneg input : (0 : ℚ) ≤ input)
  have ho := mul_nonneg price.outputPrice_nonneg (Nat.cast_nonneg output : (0 : ℚ) ≤ output)
  exact div_nonneg (add_nonneg hi ho) (Nat.cast_nonneg _)

theorem settledCost_nonneg [DecidableEq U] {env : LedgerEnv U} {row : Reservation U} {counts : Counts}
    {cost : Option ℚ} (h : settledCost env row counts = .ok cost) : 0 ≤ cost.getD 0 := by
  unfold settledCost at h
  split at h
  · obtain ⟨price, -, rfl⟩ := map_eq_ok.mp h
    exact cost_nonneg price _ _
  · cases h
    exact le_refl _

theorem lowers_settled {r : Reservation U} {counts : Counts} {cost : Option ℚ}
    (hstate : r.state = .started ∨ r.state = .unknown) (hcost : 0 ≤ cost.getD 0) :
    Lowers r (settledRow counts cost r) := by
  constructor
  · unfold unsettled
    rcases hstate with h | h <;> rw [h] <;> rfl
  · rfl
  · rfl
  · rfl
  · rfl
  · rfl
  · rfl
  · intro hactive
    unfold active settledRow at hactive
    cases cost <;> simp at hactive
  · exact hcost

section update

variable {limits : Limits} {among : Reservation U → Bool} {t : ℚ} {rows : List (Reservation U)}
  {cond : Reservation U → Bool} {set : Reservation U → Reservation U}

theorem capped_update {M : Type} [AddCommMonoid M] [LinearOrder M] [IsOrderedAddMonoid M]
    {reserved measured : Reservation U → M} {start : ℚ → Option ℚ} {limit : M}
    (h : Capped reserved measured among start t limit rows)
    (hnonneg : ∀ r ∈ rows, 0 ≤ reserved r) (hset : ∀ r ∈ rows, cond r = true → Lowers r (set r))
    (hamong : ∀ r ∈ rows, cond r = true → among (set r) = among r)
    (hreserved : ∀ r ∈ rows, cond r = true → reserved (set r) = reserved r) :
    Capped reserved measured among start t limit (Table.update cond set rows) := by
  intro s hs
  refine le_trans (load_update_le fun r hr hc => ?_) (h s hs)
  have hl := hset r hr hc
  have hper : r.inPeriod s = true := by
    unfold inPeriod
    rw [hl.unsettled, Bool.or_true, Bool.and_true]
    exact (Bool.and_eq_true_iff.mp hl.unsettled).2
  have hcov : covered reserved measured r = reserved r := by
    unfold covered
    rw [if_pos hl.unsettled]
  rw [hamong r hr hc, hper, Bool.and_true, hcov]
  by_cases ha : among r = true
  · rw [if_pos ha]
    split
    · exact le_of_le_of_eq (covered_le_reserved _) (hreserved r hr hc)
    · exact hnonneg r hr
  · rw [if_neg (by simp [ha]), if_neg ha]

theorem kept_update (h : Kept limits among t rows) (hpriced : Priced rows)
    (hset : ∀ r ∈ rows, cond r = true → Lowers r (set r))
    (hamong : ∀ r ∈ rows, cond r = true → among (set r) = among r) :
    Kept limits among t (Table.update cond set rows) := by
  constructor
  · refine le_trans (load_update_le fun r hr hc => ?_) h.reserved
    have hl := hset r hr hc
    rw [hamong r hr hc, hl.tokens, hl.unsettled]
    by_cases ha : among r = true
    · rw [ha]
      split
      · exact le_refl _
      · exact Nat.zero_le _
    · simp [ha]
  · intro workload
    refine le_trans (load_update_le fun r hr hc => ?_) (h.slots workload)
    have hl := hset r hr hc
    unfold holds
    rw [hamong r hr hc, hl.workload]
    by_cases hact : (set r).active = true
    · rw [hact, hl.active hact]
    · simp [hact]
  · intro s
    refine le_trans (load_update_le fun r hr hc => ?_) (h.window s)
    unfold within
    rw [hamong r hr hc, (hset r hr hc).created]
  · exact capped_update h.daily (fun _ _ => Nat.zero_le _) hset hamong fun r hr hc => (hset r hr hc).tokens
  · exact capped_update h.monthly (fun _ _ => Nat.zero_le _) hset hamong fun r hr hc => (hset r hr hc).tokens
  · exact capped_update h.cost (fun r hr => (hpriced r hr).1) hset hamong fun r hr hc => (hset r hr hc).cost

theorem priced_update (h : Priced rows) (hset : ∀ r ∈ rows, cond r = true → Lowers r (set r)) :
    Priced (Table.update cond set rows) := by
  intro r' hr'
  rcases Table.mem_update.mp hr' with ⟨r, hr, hc, rfl⟩ | ⟨hr, -⟩
  · have hl := hset r hr hc
    exact ⟨le_of_le_of_eq (h r hr).1 hl.cost.symm, hl.measured⟩
  · exact h r' hr

end update

/-! ### The classes of the ledger -/

section classes

variable [DecidableEq U] {env : LedgerEnv U} {db : Ledger U} {t : ℚ}

def Reservation.ofTenant (tenant : U) (r : Reservation U) : Bool := r.tenant = tenant

def Reservation.ofOwner (scope : Scope U) (r : Reservation U) : Bool :=
  r.tenant = scope.tenant && r.owner = scope.owner

/-- The time of a call: what its transaction reads on the clock. -/
def Ledger.Call.now? : Call U → Option ℚ
  | .reserve clock _ _ => some clock.now
  | .transition .. | .settle .. => none

/-- The invariant of a ledger without an evaluation binding. -/
structure KeptAll (env : LedgerEnv U) (t : ℚ) (db : Ledger U) : Prop where
  distinct : db.Distinct
  priced : Priced db.reservations
  tenant : ∀ tenant, Kept env.policy.tenant (ofTenant tenant) t db.reservations
  owner : ∀ scope, Kept env.policy.owner (ofOwner scope) t db.reservations

/-- A call is admitted if its tenant and its owner have room for it. -/
theorem denied_eq_false_iff (hpolicy : env.policy.evaluation = none) {args : ReserveArgs U}
    {cost now day month : ℚ} :
    db.denied env args cost now day month = false ↔
      Room env.policy.tenant (ofTenant (args.principal.scope env.toIds).tenant) args.workload
        (args.inputTokens.toNat + args.outputTokens.toNat) cost now day month db.reservations ∧
      Room env.policy.owner (ofOwner (args.principal.scope env.toIds)) args.workload
        (args.inputTokens.toNat + args.outputTokens.toNat) cost now day month db.reservations := by
  unfold denied QuotaPolicy.select
  rw [hpolicy]
  simp only [filter_filter_and, Bool.or_eq_false_iff, exceeds_eq_false_iff]
  exact Iff.rfl

omit [DecidableEq U] in
theorem checkReserve_nonneg {clock : Readings} {args : ReserveArgs U} {cost : ℚ}
    (h : checkReserve env clock args = .ok cost) : 0 ≤ cost := by
  unfold checkReserve at h
  obtain ⟨-, h⟩ := ite_error_eq_ok.mp h
  obtain ⟨price, -, h⟩ := bind_eq_ok.mp h
  split at h
  · cases h
  · obtain ⟨-, h⟩ := ite_error_eq_ok.mp h
    obtain ⟨-, h⟩ := ite_error_eq_ok.mp h
    cases h
    exact cost_nonneg price _ _

theorem keptAll_empty (env : LedgerEnv U) (t : ℚ) : KeptAll env t (Ledger.empty : Ledger U) := by
  constructor
  · exact List.nodup_nil
  · intro r hr
    cases hr
  · intro tenant
    exact Kept.nil _ _ t
  · intro scope
    exact Kept.nil _ _ t

/-- The rows that a settlement updates are started or unknown. -/
theorem lowers_of_ticket (h : db.Distinct) {ticket : U} {row : Reservation U} (counts : Counts)
    {cost : Option ℚ} (hrow : db.reservations.find? (fun r => r.ticket = ticket) = some row)
    (hstate : row.state = .started ∨ row.state = .unknown) (hcost : 0 ≤ cost.getD 0) :
    ∀ r ∈ db.reservations, (decide (r.ticket = ticket)) = true → Lowers r (settledRow counts cost r) := by
  intro r hr hticket
  have hfound := (Table.lookup_eq_some_iff h).mp hrow
  have hsame : r = row :=
    Table.eq_of_key h hr hfound.1 ((of_decide_eq_true hticket).trans hfound.2.symm)
  rw [hsame]
  exact lowers_settled hstate hcost

theorem keptAll_next (hpolicy : env.policy.evaluation = none) (h : KeptAll env t db) (c : Call U)
    (hclock : ∀ now, c.now? = some now → now ≤ t) : KeptAll env t (db.next env c) := by
  have hdistinct : (db.next env c).Distinct := distinct_next h.distinct c
  have hm := next_moves env db c
  generalize db.next env c = db' at hm hdistinct
  cases hm with
  | nothing => exact h
  | denies => exact ⟨h.distinct, h.priced, h.tenant, h.owner⟩
  | reserves clock ticket args cost day month events hcost hnew hday hmonth hroom hticket =>
    obtain ⟨htenant, howner⟩ := (denied_eq_false_iff hpolicy).mp hroom
    have hle : clock.now ≤ t := hclock _ rfl
    constructor
    · exact hdistinct
    · intro r hr
      rcases List.mem_append.mp hr with hold | hnew
      · exact h.priced r hold
      · rw [List.mem_singleton.mp hnew]
        exact ⟨checkReserve_nonneg hcost, le_refl _⟩
    · intro tenant
      refine kept_insert (h.tenant tenant) h.priced hle hday hmonth ?_
      intro hin
      obtain rfl : (args.principal.scope env.toIds).tenant = tenant := of_decide_eq_true hin
      exact htenant
    · intro scope
      refine kept_insert (h.owner scope) h.priced hle hday hmonth ?_
      intro hin
      obtain ⟨ht, ho⟩ := Bool.and_eq_true_iff.mp hin
      obtain rfl : args.principal.scope env.toIds = scope := by
        cases scope
        exact congrArg₂ Scope.mk (of_decide_eq_true ht) (of_decide_eq_true ho)
      exact howner
  | transitions ticket before after hallowed hone =>
    have hset : ∀ r ∈ db.reservations, changes ticket before r = true →
        Lowers r { r with state := after } := by
      intro r hr hc
      exact lowers_transition hallowed (of_decide_eq_true (Bool.and_eq_true_iff.mp hc).2)
        (h.priced r hr).2
    constructor
    · exact hdistinct
    · exact priced_update h.priced hset
    · intro tenant
      exact kept_update (h.tenant tenant) h.priced hset fun _ _ _ => rfl
    · intro scope
      exact kept_update (h.owner scope) h.priced hset fun _ _ _ => rfl
  | settles ticket counts row cost hrow hstate hcost =>
    have hset := lowers_of_ticket h.distinct counts hrow hstate (settledCost_nonneg hcost)
    constructor
    · exact hdistinct
    · exact priced_update h.priced hset
    · intro tenant
      exact kept_update (h.tenant tenant) h.priced hset fun _ _ _ => rfl
    · intro scope
      exact kept_update (h.owner scope) h.priced hset fun _ _ _ => rfl

theorem keptAll_run (hpolicy : env.policy.evaluation = none) (calls : List (Call U))
    (hclock : ∀ c ∈ calls, ∀ now, c.now? = some now → now ≤ t) :
    KeptAll env t (Ledger.empty.run env calls) := by
  have hall : Along (Ledger.next env) (fun _ c => ∀ now, c.now? = some now → now ≤ t) Ledger.empty
      calls := along_of_prefix fun before c rest heq => hclock c (by simp [heq])
  exact exec_invariant (KeptAll env t) (fun _ c hc h => keptAll_next hpolicy h c hc) hall
    (keptAll_empty env t)

end classes

/-! ### The limits as the ledger counts them -/

/-- How much the measured tokens of a row exceed the reserved ones. -/
def Reservation.tokenOverrun (r : Reservation U) : Nat := max 0 (r.actualTokens - r.reservedTokens)

/-- How much the measured cost of a row exceeds the reserved one. -/
def Reservation.costOverrun (r : Reservation U) : ℚ := max 0 (r.measuredCost - r.cost)

def Reservation.isSettled (r : Reservation U) : Bool := r.state = .settled

/-- The counted amounts are the covered ones and the overruns of the settled rows. -/
theorem load_counted {M : Type} [AddCommMonoid M] [LinearOrder M]
    {reserved measured overrun : Reservation U → M} {among : Reservation U → Bool} {start : ℚ}
    {rows : List (Reservation U)}
    (hsplit : ∀ r, measured r = min (measured r) (reserved r) + overrun r) :
    load (counted reserved measured) (fun r => among r && r.inPeriod start) rows
      = load (covered reserved measured) (fun r => among r && r.inPeriod start) rows
        + load overrun (fun r => (among r && r.inPeriod start) && r.isSettled) rows := by
  rw [load_eq_sum, load_eq_sum, load_eq_sum, ← List.sum_map_add]
  refine congrArg List.sum (List.map_congr_left fun r _ => ?_)
  by_cases hin : (among r && r.inPeriod start) = true
  · have hstate : r.state ≠ .released := by
      unfold inPeriod at hin
      simp only [Bool.and_eq_true, decide_eq_true_eq] at hin
      exact hin.2.1
    rw [hin, if_pos rfl, if_pos rfl, Bool.true_and]
    unfold counted covered
    by_cases hsettled : r.state = .settled
    · have hun : r.unsettled = false := by simp [unsettled, hsettled]
      rw [hun, if_neg Bool.false_ne_true, if_neg Bool.false_ne_true, if_pos (by simp [isSettled, hsettled])]
      exact hsplit r
    · have hun : r.unsettled = true := by simp [unsettled, hsettled, hstate]
      have hnot : r.isSettled = false := by simp [isSettled, hsettled]
      rw [hun, hnot, if_pos rfl, if_pos rfl, if_neg Bool.false_ne_true, add_zero]
  · rw [if_neg hin, if_neg hin, if_neg (by simp [hin]), add_zero]

/-- The limits of a class of reservations at a time. -/
structure Within (limits : Limits) (among : Reservation U → Bool) (t : ℚ)
    (rows : List (Reservation U)) : Prop where
  /-- The reserved tokens of the rows that are neither settled nor released. -/
  reserved : load reservedTokens (fun r => among r && r.unsettled) rows ≤ limits.reservedTokens
  /-- The reserved, admitting or started rows of each workload. -/
  concurrent : ∀ workload, load (fun _ => 1) (fun r => among r && r.holds workload) rows
    ≤ limits.cap workload
  /-- The rows of every window. -/
  window : Windowed (fun _ => 1) among Reservation.created (limits.windowSeconds : ℚ)
    limits.requestsPerWindow rows
  /-- The tokens of the day. -/
  daily : ∀ day, Calendar.dayStart t = some day →
    load Reservation.tokens (fun r => among r && r.inPeriod day) rows ≤ limits.dailyTokens
      + load tokenOverrun (fun r => (among r && r.inPeriod day) && r.isSettled) rows
  /-- The tokens of the month. -/
  monthly : ∀ month, Calendar.monthStart t = some month →
    load Reservation.tokens (fun r => among r && r.inPeriod month) rows ≤ limits.monthlyTokens
      + load tokenOverrun (fun r => (among r && r.inPeriod month) && r.isSettled) rows
  /-- The cost of the month. -/
  cost : ∀ month, Calendar.monthStart t = some month →
    load expense (fun r => among r && r.inPeriod month) rows ≤ limits.monthlyCost
      + load costOverrun (fun r => (among r && r.inPeriod month) && r.isSettled) rows

theorem within_of_kept {limits : Limits} {among : Reservation U → Bool} {t : ℚ}
    {rows : List (Reservation U)} (h : Kept limits among t rows) : Within limits among t rows := by
  have htokens : ∀ r : Reservation U,
      r.actualTokens = min r.actualTokens r.reservedTokens + r.tokenOverrun := by
    intro r
    unfold tokenOverrun
    omega
  have hcost : ∀ r : Reservation U, r.measuredCost = min r.measuredCost r.cost + r.costOverrun := by
    intro r
    unfold costOverrun
    rcases le_total r.measuredCost r.cost with hle | hle
    · rw [min_eq_left hle, max_eq_left (sub_nonpos.mpr hle), add_zero]
    · rw [min_eq_right hle, max_eq_right (sub_nonneg.mpr hle), add_sub_cancel]
  constructor
  · exact h.reserved
  · exact h.slots
  · exact h.window
  · intro day hday
    refine le_of_eq_of_le (load_counted htokens) ?_
    exact Nat.add_le_add_right (h.daily day hday) _
  · intro month hmonth
    refine le_of_eq_of_le (load_counted htokens) ?_
    exact Nat.add_le_add_right (h.monthly month hmonth) _
  · intro month hmonth
    refine le_of_eq_of_le (load_counted hcost) ?_
    exact add_le_add_left (h.cost month hmonth) _

/-- A ledger without an evaluation binding, after any sequence of calls and at any time that the clock has
reached: every tenant is within the limits of tenants, and every owner within the limits of owners. -/
theorem budgets_kept [DecidableEq U] (env : LedgerEnv U) (hpolicy : env.policy.evaluation = none)
    (calls : List (Call U)) (t : ℚ) (hclock : ∀ c ∈ calls, ∀ now, c.now? = some now → now ≤ t) :
    (∀ tenant, Within env.policy.tenant (ofTenant tenant) t
      (Ledger.empty.run env calls).reservations) ∧
    ∀ scope, Within env.policy.owner (ofOwner scope) t (Ledger.empty.run env calls).reservations := by
  have h := keptAll_run hpolicy calls hclock
  constructor
  · intro tenant
    exact within_of_kept (h.tenant tenant)
  · intro scope
    exact within_of_kept (h.owner scope)

/-! ### A sample -/

def sampleLimits : Limits := ⟨2, 60, 1, 1, 100, 100, 100, 10, by decide⟩

def samplePrice : Price := ⟨['p'], ['m'], 1, 1, 100, by decide, by decide, 2, by decide⟩

def sampleEnv : LedgerEnv Nat where
  uuid5 _ := 0
  uuidStr _ := []
  sha256 _ := []
  floatRepr _ := []
  divide _ _ := 0
  isPrintable _ := true
  policy := ⟨['1'], sampleLimits, sampleLimits, none⟩
  catalog := ⟨['1'], "2026-01-01".toList, [samplePrice]⟩
  eventLimit := 10

/-- A call of a principal, on 2026-03-17. -/
def sampleReserve (ticket : Nat) (now : ℚ) : Call Nat :=
  .reserve ⟨now, now, now, now⟩ ticket
    ⟨⟨['i'], ['s'], ['t'], ∅, .user, 1773748900⟩, ⟨[':'], 0, 0, 1, [], ['p'], [], ['m'], []⟩, 20, 30,
      .interactive⟩

/-- Of three calls with one identity one is reserved; it is settled with more tokens than reserved. -/
def sampleCalls : List (Call Nat) :=
  [sampleReserve 1 1773748800, sampleReserve 2 1773748801, .transition 1 .reserved .admitting,
    .transition 1 .admitting .started, .settle 1 (some 20, some 40)]

theorem budgets_kept_sample :
    (Ledger.empty.run sampleEnv sampleCalls).reservations.map
        (fun r => (r.ticket, r.state, r.tokens, r.tokenOverrun)) = [(1, .settled, 60, 10)] ∧
    Within sampleLimits (ofTenant 0) 1773748801
      (Ledger.empty.run sampleEnv sampleCalls).reservations := by
  constructor
  · decide +kernel
  · refine (budgets_kept sampleEnv rfl sampleCalls 1773748801 ?_).1 0
    intro c hc now hnow
    simp only [sampleCalls, List.mem_cons, List.not_mem_nil, or_false] at hc
    rcases hc with rfl | rfl | rfl | rfl | rfl <;> cases hnow <;> decide

end Polymind.Governance
