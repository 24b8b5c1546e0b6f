import Polymind.Governance.Equiv.PaidOnce
import Polymind.Governance.Equiv.Budgets
import Polymind.Governance.Generation
import Polymind.Llm.Equiv.Generation

/-!
# Settlement

* `Booked`: what a reservation has recorded agrees with its state;
* `Grows`: what the calls of the ledger do to a reservation that has recorded something;
* `settle_conflict`, `settle_repeat`: conflicting and repeated settlements;
* `Answered`: the provider call under a ticket was answered with a body that reports the counts;
* `settlement_sound`: usage is never invented, and settlement is monotone.
-/

namespace Polymind.Governance

open Traces Ledger

variable {U : Type}

/-! ### What a reservation has recorded -/

/-- A settled reservation has both counts and their cost, an unknown one lacks a count, and the others
have recorded nothing. -/
def Booked (r : Reservation U) : Prop :=
  match r.state with
  | .settled => r.actualInput.isSome ∧ r.actualOutput.isSome ∧ r.actualCost.isSome
  | .unknown => (r.actualInput = none ∨ r.actualOutput = none) ∧ r.actualCost = none
  | _ => r.actualInput = none ∧ r.actualOutput = none ∧ r.actualCost = none

theorem Booked.nothing {r : Reservation U} (h : Booked r)
    (hs : r.state ≠ .settled ∧ r.state ≠ .unknown) :
    r.actualInput = none ∧ r.actualOutput = none ∧ r.actualCost = none := by
  unfold Booked at h
  split at h
  · next hstate => exact absurd hstate hs.1
  · next hstate => exact absurd hstate hs.2
  · exact h

variable [DecidableEq U] {env : LedgerEnv U} {db db' : Ledger U}

omit [DecidableEq U] in
/-- A settlement has a cost when both counts are known. -/
theorem settledCost_cases {row : Reservation U} {counts : Counts} {cost : Option ℚ}
    (h : settledCost env row counts = .ok cost) :
    (∃ p c, counts = (some p, some c) ∧ cost.isSome) ∨
      ((counts.1 = none ∨ counts.2 = none) ∧ cost = none) := by
  obtain ⟨input, output⟩ := counts
  unfold settledCost at h
  cases input with
  | none => exact Or.inr ⟨Or.inl rfl, (Except.ok.inj h).symm⟩
  | some p =>
    cases output with
    | none => exact Or.inr ⟨Or.inr rfl, (Except.ok.inj h).symm⟩
    | some c =>
      obtain ⟨price, -, rfl⟩ := map_eq_ok.mp h
      exact Or.inl ⟨p, c, rfl, rfl⟩

omit [DecidableEq U] in
theorem booked_settledRow {row r : Reservation U} {counts : Counts} {cost : Option ℚ}
    (h : settledCost env row counts = .ok cost) : Booked (settledRow counts cost r) := by
  rcases settledCost_cases h with ⟨p, c, rfl, hcost⟩ | ⟨hnone, rfl⟩
  · simp [Booked, settledRow, hcost]
  · have hmap : counts.1.map Int.toNat = none ∨ counts.2.map Int.toNat = none := by
      simpa using hnone
    simpa [Booked, settledRow] using hmap

/-- Every reservation agrees with its state. -/
def AllBooked (db : Ledger U) : Prop := ∀ r ∈ db.reservations, Booked r

/-- A transition is made from a state in which nothing has been recorded, and to such a state. -/
theorem allowed_states {before after : ReservationState} (h : allowed before after = true) :
    (before ≠ .settled ∧ before ≠ .unknown) ∧ after ≠ .settled ∧ after ≠ .unknown := by
  cases before <;> cases after <;> simp_all [allowed]

theorem allBooked_next (h : AllBooked db) (c : Ledger.Call U) : AllBooked (db.next env c) := by
  have hm := next_moves env db c
  generalize db.next env c = db' at hm
  cases hm with
  | nothing => exact h
  | denies => exact h
  | reserves clock ticket args cost =>
    intro r hr
    rcases List.mem_append.mp hr with hr | hr
    · exact h r hr
    · rw [List.mem_singleton.mp hr]
      exact ⟨rfl, rfl, rfl⟩
  | transitions ticket before after hallowed =>
    obtain ⟨hbefore, hafter⟩ := allowed_states hallowed
    intro r' hr'
    rcases Table.mem_update.mp hr' with ⟨r, hr, hc, rfl⟩ | ⟨hr, -⟩
    · have hstate : r.state = before := of_decide_eq_true (Bool.and_eq_true_iff.mp hc).2
      have hnone := (h r hr).nothing (by rwa [hstate])
      unfold Booked
      split
      · next hs => exact absurd hs hafter.1
      · next hs => exact absurd hs hafter.2
      · exact hnone
    · exact h r' hr
  | settles ticket counts row cost hrow hstate hcost =>
    intro r' hr'
    rcases Table.mem_update.mp hr' with ⟨r, hr, -, rfl⟩ | ⟨hr, -⟩
    · exact booked_settledRow hcost
    · exact h r' hr

/-! ### Settlement is monotone -/

/-- What becomes of a reservation: its reserved amounts stay, a recorded count stays, a settled
reservation is left alone, and an unknown one stays unknown until it is settled. -/
structure Grows (r r' : Reservation U) : Prop where
  ticket : r'.ticket = r.ticket
  input : r'.input = r.input
  output : r'.output = r.output
  cost : r'.cost = r.cost
  actualInput : ∀ v, r.actualInput = some v → r'.actualInput = some v
  actualOutput : ∀ v, r.actualOutput = some v → r'.actualOutput = some v
  settled : r.state = .settled → r' = r
  unknown : r.state = .unknown → r'.state = .unknown ∨ r'.state = .settled

omit [DecidableEq U] in
theorem Grows.refl (r : Reservation U) : Grows r r :=
  ⟨rfl, rfl, rfl, rfl, fun _ h => h, fun _ h => h, fun _ => rfl, Or.inl⟩

omit [DecidableEq U] in
theorem Grows.trans {r r' r'' : Reservation U} (h : Grows r r') (h' : Grows r' r'') : Grows r r'' := by
  refine ⟨h'.ticket.trans h.ticket, h'.input.trans h.input, h'.output.trans h.output,
    h'.cost.trans h.cost, fun v hv => h'.actualInput v (h.actualInput v hv),
    fun v hv => h'.actualOutput v (h.actualOutput v hv), ?_, ?_⟩
  · intro hs
    have hr : r' = r := h.settled hs
    rw [h'.settled (by rw [hr]; exact hs), hr]
  · intro hs
    rcases h.unknown hs with hs' | hs'
    · exact h'.unknown hs'
    · rw [h'.settled hs']
      exact Or.inr hs'

omit [DecidableEq U] in
/-- A count that was recorded and that a settlement agrees with is recorded again. -/
theorem recorded_again {old : Option Nat} {new : Option Int} (h : contradicts old new = false) {v : Nat}
    (hv : old = some v) : new.map Int.toNat = some v := by
  rw [hv] at h
  have hnew : new = some (v : Int) := by simpa [contradicts] using h
  rw [hnew]
  rfl

theorem grows_next (hd : db.Distinct) (hb : AllBooked db) {r : Reservation U}
    (hr : r ∈ db.reservations) (c : Ledger.Call U) :
    ∃ r' ∈ (db.next env c).reservations, Grows r r' := by
  have hm := next_moves env db c
  generalize db.next env c = db' at hm
  cases hm with
  | nothing => exact ⟨r, hr, .refl r⟩
  | denies => exact ⟨r, hr, .refl r⟩
  | reserves => exact ⟨r, List.mem_append_left _ hr, .refl r⟩
  | transitions ticket before after hallowed =>
    by_cases hc : changes ticket before r = true
    · -- nothing has been recorded yet
      have hstate : r.state = before := of_decide_eq_true (Bool.and_eq_true_iff.mp hc).2
      have hbefore := (allowed_states hallowed).1
      refine ⟨_, Table.mem_update.mpr (Or.inl ⟨r, hr, hc, rfl⟩), rfl, rfl, rfl, rfl,
        fun _ h => h, fun _ h => h, ?_, ?_⟩
      · intro hs
        exact absurd (hstate.symm.trans hs) hbefore.1
      · intro hs
        exact absurd (hstate.symm.trans hs) hbefore.2
    · exact ⟨r, Table.mem_update.mpr (Or.inr ⟨hr, by simpa using hc⟩), .refl r⟩
  | settles ticket counts row cost hrow hstate hcost hagrees =>
    by_cases hc : r.ticket = ticket
    · obtain rfl : row = r := by
        have hlookup := (Table.lookup_eq_some_iff hd).mpr ⟨hr, hc⟩
        exact Option.some.inj (hrow.symm.trans hlookup)
      refine ⟨_, Table.mem_update.mpr (Or.inl ⟨row, hr, by simpa using hc, rfl⟩), rfl, rfl, rfl, rfl,
        ?_, ?_, ?_, ?_⟩
      · -- a started reservation has recorded nothing
        intro v hv
        rcases hstate with hs | hs
        · rw [((hb row hr).nothing (by rw [hs]; decide)).1] at hv
          cases hv
        · exact recorded_again (hagrees hs).1 hv
      · intro v hv
        rcases hstate with hs | hs
        · rw [((hb row hr).nothing (by rw [hs]; decide)).2.1] at hv
          cases hv
        · exact recorded_again (hagrees hs).2 hv
      · intro hs
        rcases hstate with hs' | hs' <;> exact absurd (hs.symm.trans hs') (by decide)
      · intro _
        unfold settledRow
        cases cost with
        | none => exact Or.inl rfl
        | some _ => exact Or.inr rfl
    · exact ⟨r, Table.mem_update.mpr (Or.inr ⟨hr, by simpa using hc⟩), .refl r⟩

theorem allBooked_run (calls : List (Ledger.Call U)) : AllBooked (Ledger.empty.run env calls) :=
  exec_invariant AllBooked (fun _ c _ h => allBooked_next h c) (along_true _ calls) nofun

/-- What becomes of a reservation over a run. -/
theorem grows_run (hd : db.Distinct) (hb : AllBooked db) {r : Reservation U}
    (hr : r ∈ db.reservations) (calls : List (Ledger.Call U)) :
    ∃ r' ∈ (db.run env calls).reservations, Grows r r' := by
  induction calls generalizing db r with
  | nil => exact ⟨r, hr, .refl r⟩
  | cons c calls ih =>
    have hstep : ∃ r' ∈ (db.next env c).reservations, Grows r r' := grows_next hd hb hr c
    obtain ⟨r₁, hr₁, h₁⟩ := hstep
    obtain ⟨r₂, hr₂, h₂⟩ := ih (distinct_next hd c) (allBooked_next hb c) hr₁
    exact ⟨r₂, hr₂, h₁.trans h₂⟩

/-! ### Conflicting and repeated settlements -/

/-- A settlement that gives a recorded count another value, or none. -/
def Conflicts (r : Reservation U) (counts : Counts) : Prop :=
  (∃ v : Nat, r.actualInput = some v ∧ counts.1 ≠ some (v : Int)) ∨
    ∃ v : Nat, r.actualOutput = some v ∧ counts.2 ≠ some (v : Int)

theorem settle_conflict (hd : db.Distinct) (hb : AllBooked db) {r : Reservation U}
    (hr : r ∈ db.reservations) {counts : Counts} (h : Conflicts r counts) :
    transact (settle env r.ticket counts) db = (.error .reservationConflict, db) := by
  apply transact_of_error
  have hrow : db.reservations.find? (fun row => row.ticket = r.ticket) = some r :=
    (Table.lookup_eq_some_iff hd).mpr ⟨hr, rfl⟩
  unfold settle
  split
  · rfl
  rw [hrow]
  dsimp only
  split
  · -- a settled reservation accepts its own counts only
    refine if_pos fun hc => ?_
    rw [hc] at h
    rcases h with ⟨v, hv, hne⟩ | ⟨v, hv, hne⟩
    · rw [hv] at hne
      exact hne rfl
    · rw [hv] at hne
      exact hne rfl
  · next hs =>
    have hnone := (hb r hr).nothing (by rw [hs]; decide)
    rcases h with ⟨v, hv, -⟩ | ⟨v, hv, -⟩
    · rw [hnone.1] at hv
      cases hv
    · rw [hnone.2.1] at hv
      cases hv
  · next hs =>
    refine if_pos ⟨hs, ?_⟩
    rcases h with ⟨v, hv, hne⟩ | ⟨v, hv, hne⟩
    · exact Or.inl (by simp [contradicts, hv, hne])
    · exact Or.inr (by simp [contradicts, hv, hne])
  · rfl

theorem nonneg_of_validCount {v : Int} (h : validCount (some v) = true) : 0 ≤ v := by
  simp only [validCount, Option.all_some, decide_eq_true_eq] at h
  exact h.1

/-- The counts of a settlement, read back from the row. -/
theorem validCount_toNat {count : Option Int} (h : validCount count = true) :
    (count.map Int.toNat).map Int.ofNat = count := by
  cases count with
  | none => rfl
  | some v => exact congrArg some (Int.toNat_of_nonneg (nonneg_of_validCount h))

theorem contradicts_toNat {count : Option Int} (h : validCount count = true) :
    contradicts (count.map Int.toNat) count = false := by
  cases count with
  | none => rfl
  | some v => simp [contradicts, nonneg_of_validCount h]

/-- A settlement that returned returns again, and changes nothing. -/
theorem settle_repeat {t : U} {counts : Counts}
    (h : transact (settle env t counts) db = (.ok (), db')) :
    transact (settle env t counts) db' = (.ok (), db') := by
  have hbody := transact_eq_ok.mp h
  obtain ⟨row, hrow, ⟨-, -, rfl⟩ | ⟨-, -, hvalid, cost, hcost, rfl⟩⟩ := settle_eq_ok hbody
  · exact h
  · apply transact_of_ok
    have hlookup : Table.lookup Reservation.ticket (Table.update (fun r => decide (r.ticket = t))
        (settledRow counts cost) db.reservations) t = some (settledRow counts cost row) := by
      rw [Table.lookup_update (by intro _ _; rfl)]
      have hrow' : Table.lookup Reservation.ticket db.reservations t = some row := hrow
      rw [hrow', Option.map_some, if_pos (by simpa using (Table.lookup_mem hrow').2)]
    have hrow' : (Table.update (fun r => decide (r.ticket = t)) (settledRow counts cost)
        db.reservations).find? (fun r => r.ticket = t) = some (settledRow counts cost row) := hlookup
    unfold settle
    rw [if_neg (by simp [hvalid.1, hvalid.2]), hrow']
    dsimp only
    rcases settledCost_cases hcost with ⟨p, c, rfl, hsome⟩ | ⟨hnone, rfl⟩
    · -- the row is settled, with these counts
      have hstate : (settledRow (some p, some c) cost row).state = .settled := if_pos hsome
      rw [hstate]
      dsimp only
      rw [if_neg]
      rw [not_not]
      exact Prod.ext (validCount_toNat hvalid.1).symm (validCount_toNat hvalid.2).symm
    · -- the row is unknown, and is written once more
      have hstate : (settledRow counts none row).state = .unknown := rfl
      have hcost' : settledCost env (settledRow counts none row) counts = .ok none := hcost
      have htwice : Table.update (fun r => decide (r.ticket = t)) (settledRow counts none)
          (Table.update (fun r => decide (r.ticket = t)) (settledRow counts none) db.reservations)
          = Table.update (fun r => decide (r.ticket = t)) (settledRow counts none)
            db.reservations := by
        unfold Table.update
        rw [List.map_map]
        refine List.map_congr_left fun r _ => ?_
        by_cases hr : r.ticket = t
        · simp [hr, settledRow]
        · simp [hr]
      rw [hstate]
      dsimp only
      rw [if_neg, hcost']
      · exact congrArg (fun rows => Except.ok ((), { db with reservations := rows })) htwice
      · rintro ⟨-, hclash | hclash⟩
        · exact absurd hclash (by simp [settledRow, contradicts_toNat hvalid.1])
        · exact absurd hclash (by simp [settledRow, contradicts_toNat hvalid.2])

/-- A settlement that lacks a count leaves the reservation unknown. -/
theorem settle_unknown {t : U} {counts : Counts} (hb : AllBooked db)
    (h : transact (settle env t counts) db = (.ok (), db'))
    (hnone : counts.1 = none ∨ counts.2 = none) :
    ∃ r ∈ db'.reservations, r.ticket = t ∧ r.state = .unknown := by
  obtain ⟨row, hrow, ⟨hs, hcounts, rfl⟩ | ⟨-, -, -, cost, hcost, rfl⟩⟩ :=
    settle_eq_ok (transact_eq_ok.mp h)
  · -- a settled reservation has both counts
    have hbooked := hb row (List.mem_of_find?_eq_some hrow)
    unfold Booked at hbooked
    rw [hs] at hbooked
    rw [hcounts] at hnone
    obtain ⟨hinput, houtput, -⟩ := hbooked
    rcases hnone with hnone | hnone
    · simp [Option.map_eq_none_iff.mp hnone] at hinput
    · simp [Option.map_eq_none_iff.mp hnone] at houtput
  · have hrow' : Table.lookup Reservation.ticket db.reservations t = some row := hrow
    obtain ⟨hmem, hticket⟩ := Table.lookup_mem hrow'
    refine ⟨settledRow counts cost row,
      Table.mem_update.mpr (Or.inl ⟨row, hmem, by simpa using hticket, rfl⟩), hticket, ?_⟩
    rcases settledCost_cases hcost with ⟨p, c, rfl, -⟩ | ⟨-, rfl⟩
    · rcases hnone with hn | hn <;> cases hn
    · rfl

/-! ### Reservations that stay unknown -/

/-- The full reservation counts: in every period, with the tokens and the cost that were reserved. -/
structure CountsInFull (r : Reservation U) : Prop where
  unsettled : r.unsettled = true
  inPeriod : ∀ start, r.inPeriod start = true
  tokens : r.tokens = r.input + r.output
  expense : r.expense = r.cost

omit [DecidableEq U] in
theorem countsInFull_of_unknown {r : Reservation U} (h : r.state = .unknown) : CountsInFull r := by
  have hunsettled : r.unsettled = true := by
    unfold Reservation.unsettled
    rw [h]
    rfl
  constructor
  · exact hunsettled
  · intro start
    unfold Reservation.inPeriod
    rw [h, hunsettled]
    simp
  · exact if_pos hunsettled
  · exact if_pos hunsettled

/-! ### Usage is never invented -/

variable {I E : Type} [DecidableEq I]

/-- The reservation that a process settles next, with the usage it has. -/
def Phase.accounts? : Phase U E → Option (U × Option Llm.Usage)
  | .account t _ true ending => some (t, ending.usage)
  | _ => none

/-- Only a process that waits for the provider comes to settle. -/
theorem accounts_of_moves {env : ExecEnv U E} {args : ExecuteArgs U} {p p' : Phase U E}
    {notes : List (Note U E)} {x : U × Option Llm.Usage} (h : Moves env args db p db' p' notes)
    (hx : p'.accounts? = some x) : p.accounts? = some x ∨ ∃ t s, p = .provider t s := by
  cases h with
  | stays => exact Or.inl hx
  | replies t s => exact Or.inr ⟨t, s, rfl⟩
  | throws t s => exact Or.inr ⟨t, s, rfl⟩
  | proceeds _ _ _ hp' =>
    rcases hp' with ⟨hp', -⟩ | rfl
    · cases p' <;> first | cases hx | cases hp'
    · cases hx
  | fails _ _ _ _ hp => cases hp <;> cases hx
  | _ => cases hx

/-- A step of the world in which no provider answers: the ledger is as before, or a process has made its
next call; and a process that settles next already did. -/
theorem next_unanswered {env : ExecEnv U E} {w : World U I E} (h : w.ledger.Distinct)
    {e : Event U I E} (he : ∀ i reply args t s, e = .answer i reply →
      w.procs i ≠ some (args, .provider t s)) :
    ((w.next env e).ledger = w.ledger ∨ ∃ i args p c, w.procs i = some (args, p) ∧ Calls args p c ∧
      (w.next env e).ledger = w.ledger.next env.toLedgerEnv c) ∧
    ∀ j args p x, (w.next env e).procs j = some (args, p) → p.accounts? = some x →
      ∃ p₀, w.procs j = some (args, p₀) ∧ p₀.accounts? = some x := by
  -- what holds after a move of a process that does not wait for the provider
  have hmove : ∀ i args p db' p' notes, w.procs i = some (args, p) →
      Moves env args w.ledger p db' p' notes →
      (∀ t s, p = .provider t s → p' = p) →
      ((w.advance i args db' p' notes).ledger = w.ledger ∨ ∃ i args p c,
        w.procs i = some (args, p) ∧ Calls args p c ∧
        (w.advance i args db' p' notes).ledger = w.ledger.next env.toLedgerEnv c) ∧
      ∀ j args' q x, (w.advance i args db' p' notes).procs j = some (args', q) →
        q.accounts? = some x → ∃ p₀, w.procs j = some (args', p₀) ∧ p₀.accounts? = some x := by
    intro i args p db' p' notes hproc hm hwaits
    constructor
    · rcases called_of_moves hm with hsame | ⟨c, hc, hnext⟩
      · exact Or.inl hsame
      · exact Or.inr ⟨i, args, p, c, hproc, hc, hnext⟩
    · intro j args' q x hq hx
      rcases procs_advance hq with ⟨rfl, rfl, rfl⟩ | ⟨-, hold⟩
      · refine ⟨p, hproc, ?_⟩
        rcases accounts_of_moves hm hx with hp | ⟨t, s, hp⟩
        · exact hp
        · rw [← hwaits t s hp]
          exact hx
      · exact ⟨q, hold, hx⟩
  have hstill : (w.ledger = w.ledger ∨ ∃ i args p c, w.procs i = some (args, p) ∧ Calls args p c ∧
      w.ledger = w.ledger.next env.toLedgerEnv c) ∧
      ∀ j args p x, w.procs j = some (args, p) → p.accounts? = some x →
        ∃ p₀, w.procs j = some (args, p₀) ∧ p₀.accounts? = some x :=
    ⟨Or.inl rfl, fun j args p x hp hx => ⟨p, hp, hx⟩⟩
  cases e with
  | start i args =>
    unfold World.next
    dsimp only
    split
    · refine ⟨Or.inl rfl, fun j args' q x hq hx => ?_⟩
      rcases procs_advance hq with ⟨-, -, rfl⟩ | ⟨-, hold⟩
      · cases hx
      · exact ⟨q, hold, hx⟩
    · exact hstill
  | answer i reply =>
    unfold World.next
    dsimp only
    split
    · next args p _ hproc =>
      refine hmove i args p _ _ _ hproc (answer_moves reply) fun t s hp => ?_
      rw [hp] at hproc
      exact absurd hproc (he i reply args t s rfl)
    · exact hstill
  | ledger i clock fresh fault =>
    unfold World.next
    dsimp only
    split
    · next args p _ hproc =>
      refine hmove i args p _ _ _ hproc (ledgerStep_moves h clock fresh fault) fun t s hp => ?_
      rw [hp]
      rfl
    · exact hstill
  | call i =>
    unfold World.next
    dsimp only
    split
    · next args p _ hproc =>
      refine hmove i args p _ _ _ hproc call_moves fun t s hp => ?_
      rw [hp]
      rfl
    · exact hstill
  | crash i => exact hstill

section provider

variable {F : Type} {env : ExecEnv U (Llm.ProviderError ⊕ F)}

/-- In the trace, the provider call under the ticket was answered with a body that reports the counts. -/
def Answered (env : ExecEnv U (Llm.ProviderError ⊕ F)) (es : List (OpenAIEvent U I F)) (t : U)
    (prompt completion : Nat) : Prop :=
  ∃ before rest i model request value surrogate args slot,
    es = before ++ .provider i model request (.body value surrogate) :: rest ∧
    (World.empty.openAIRun env before).stopped i = false ∧
    (World.empty.openAIRun env before).procs i = some (args, .provider t slot) ∧
    Llm.Reports value prompt completion

theorem Answered.append {es : List (OpenAIEvent U I F)} {t : U} {p c : Nat}
    (h : Answered env es t p c) (e : OpenAIEvent U I F) : Answered env (es ++ [e]) t p c := by
  obtain ⟨before, rest, i, model, request, value, surrogate, args, slot, rfl, h⟩ := h
  exact ⟨before, rest ++ [e], i, model, request, value, surrogate, args, slot, by simp, h⟩

/-- Every settled reservation, and every process that is about to settle known counts, has an answer of
the provider behind it. -/
structure Backed (env : ExecEnv U (Llm.ProviderError ⊕ F)) (es : List (OpenAIEvent U I F))
    (w : World U I (Llm.ProviderError ⊕ F)) : Prop where
  distinct : w.ledger.Distinct
  rows : ∀ r ∈ w.ledger.reservations, r.state = .settled → ∃ p c, r.actualInput = some p ∧
    r.actualOutput = some c ∧ Answered env es r.ticket p c
  accounts : ∀ i args phase t u p c, w.procs i = some (args, phase) →
    phase.accounts? = some (t, some u) → u.promptTokens = some p → u.completionTokens = some c →
    Answered env es t p.toNat c.toNat

/-- A call of a process that has an answer behind it settles with the counts of the answer. -/
theorem rows_called {es : List (OpenAIEvent U I F)} {w : World U I (Llm.ProviderError ⊕ F)}
    (h : Backed env es w) {i : I} {args : ExecuteArgs U} {phase : Phase U (Llm.ProviderError ⊕ F)}
    {call : Ledger.Call U} (hproc : w.procs i = some (args, phase)) (hcall : Calls args phase call) :
    ∀ r ∈ (w.ledger.next env.toLedgerEnv call).reservations, r.state = .settled → ∃ p c,
      r.actualInput = some p ∧ r.actualOutput = some c ∧ Answered env es r.ticket p c := by
  have hm := next_moves env.toLedgerEnv w.ledger call
  generalize w.ledger.next env.toLedgerEnv call = db' at hm
  cases hm with
  | nothing => exact h.rows
  | denies => exact h.rows
  | reserves =>
    intro r hr hs
    rcases List.mem_append.mp hr with hr | hr
    · exact h.rows r hr hs
    · rw [List.mem_singleton.mp hr] at hs
      cases hs
  | transitions ticket before after hallowed =>
    intro r' hr' hs
    rcases Table.mem_update.mp hr' with ⟨r, -, -, rfl⟩ | ⟨hr, -⟩
    · exact absurd hs (allowed_states hallowed).2.1
    · exact h.rows r' hr hs
  | settles ticket counts row cost hrow hstate hcost =>
    intro r' hr' hs
    rcases Table.mem_update.mp hr' with ⟨r, -, hticket, rfl⟩ | ⟨hr, -⟩
    · cases hcall with
      | settle t slot ending =>
        rcases settledCost_cases hcost with ⟨p, c, hcounts, -⟩ | ⟨-, rfl⟩
        · -- both counts are those of the usage the process has
          unfold countsOf at hcounts
          split at hcounts
          · next u husage =>
            obtain ⟨hp, hc⟩ := Prod.mk.inj hcounts
            refine ⟨p.toNat, c.toNat, ?_, ?_, ?_⟩
            · simp [settledRow, countsOf, husage, hp]
            · simp [settledRow, countsOf, husage, hc]
            · have hr : (settledRow (countsOf ending.usage) cost r).ticket = ticket :=
                of_decide_eq_true hticket
              rw [hr]
              refine h.accounts i args _ ticket u p c hproc ?_ hp hc
              exact congrArg (fun usage => some (ticket, usage)) husage
          · cases hcounts
        · cases hs
    · exact h.rows r' hr hs

omit [DecidableEq U] [DecidableEq I] in
/-- The usage that the process has after an answer is the one that leaves `execute`. -/
theorem answer_openAIReply (ledgerEnv : LedgerEnv U) (inference : F → Option (Option Llm.Usage × Str))
    (args : ExecuteArgs U) (model : Str) (request : Llm.GenerationRequest) (x : Llm.Exchange)
    (t slot : U) {t' : U} {u : Llm.Usage}
    (h : (answer (openAIEnv ledgerEnv inference) args (openAIReply model request x)
      (.provider t slot)).1.accounts? = some (t', some u)) :
    t' = t ∧ Llm.OpenAICompatibleProvider.carried
      (Llm.OpenAICompatibleProvider.execute model request x) = some u := by
  unfold openAIReply at h
  cases hx : Llm.OpenAICompatibleProvider.execute model request x with
  | ok usage =>
    rw [hx] at h
    obtain ⟨h1, h2⟩ := Prod.mk.inj (Option.some.inj h)
    exact ⟨h1.symm, h2⟩
  | error e =>
    rw [hx] at h
    obtain ⟨category, usage⟩ := e
    cases category with
    | none =>
      obtain ⟨-, h2⟩ := Prod.mk.inj (Option.some.inj h)
      cases h2
    | some category =>
      obtain ⟨h1, h2⟩ := Prod.mk.inj (Option.some.inj h)
      exact ⟨h1.symm, h2⟩

/-- An event that answers no provider call. -/
theorem backed_unanswered {es : List (OpenAIEvent U I F)} {w : World U I (Llm.ProviderError ⊕ F)}
    (h : Backed env es w) (e : OpenAIEvent U I F) {e' : Event U I (Llm.ProviderError ⊕ F)}
    (he : ∀ i reply args t s, e' = .answer i reply → w.procs i ≠ some (args, .provider t s)) :
    Backed env (es ++ [e]) (w.next env e') := by
  obtain ⟨hledger, hprocs⟩ := next_unanswered h.distinct he
  constructor
  · rcases hledger with heq | ⟨i, args, p, c, -, -, heq⟩
    · rw [heq]
      exact h.distinct
    · rw [heq]
      exact distinct_next h.distinct c
  · intro r hr hs
    have hrow : ∃ p c, r.actualInput = some p ∧ r.actualOutput = some c ∧
        Answered env es r.ticket p c := by
      rcases hledger with heq | ⟨i, args, p, c, hproc, hcall, heq⟩
      · rw [heq] at hr
        exact h.rows r hr hs
      · rw [heq] at hr
        exact rows_called h hproc hcall r hr hs
    obtain ⟨p, c, hp, hc, hanswered⟩ := hrow
    exact ⟨p, c, hp, hc, hanswered.append e⟩
  · intro i args phase t u p c hproc hx hp hc
    obtain ⟨phase₀, hproc₀, hx₀⟩ := hprocs i args phase _ hproc hx
    exact (h.accounts i args phase₀ t u p c hproc₀ hx₀ hp hc).append e

omit [DecidableEq U] [DecidableEq I] in
theorem atProvider_iff {w : World U I (Llm.ProviderError ⊕ F)} {i : I} :
    w.atProvider i = true ↔ ∃ args t s, w.procs i = some (args, .provider t s) := by
  unfold World.atProvider
  split
  · next args t s hproc => exact ⟨fun _ => ⟨args, t, s, hproc⟩, fun _ => rfl⟩
  · next hnot =>
    refine ⟨fun h => (Bool.false_ne_true h).elim, ?_⟩
    rintro ⟨args, t, s, hproc⟩
    exact absurd hproc (hnot args t s)

theorem next_answer {w : World U I (Llm.ProviderError ⊕ F)} {i : I} {args : ExecuteArgs U}
    {phase : Phase U (Llm.ProviderError ⊕ F)} (reply : Reply U (Llm.ProviderError ⊕ F))
    (hproc : w.procs i = some (args, phase)) :
    w.next env (.answer i reply) = if w.stopped i then w else
      w.advance i args w.ledger (answer env args reply phase).1 (answer env args reply phase).2 := by
  unfold World.next
  dsimp only
  rw [hproc]
  cases w.stopped i with
  | true => rfl
  | false => rfl

end provider

section run

variable {F : Type} {ledgerEnv : LedgerEnv U} {inference : F → Option (Option Llm.Usage × Str)}

theorem backed_next {es : List (OpenAIEvent U I F)}
    (h : Backed (openAIEnv ledgerEnv inference) es
      (World.empty.openAIRun (openAIEnv ledgerEnv inference) es)) (e : OpenAIEvent U I F) :
    Backed (openAIEnv ledgerEnv inference) (es ++ [e])
      ((World.empty.openAIRun (openAIEnv ledgerEnv inference) es).openAINext
        (openAIEnv ledgerEnv inference) e) := by
  have hstill : Backed (openAIEnv ledgerEnv inference) (es ++ [e])
      (World.empty.openAIRun (openAIEnv ledgerEnv inference) es) := by
    refine ⟨h.distinct, fun r hr hs => ?_, fun i args phase t u p c hproc hx hp hc => ?_⟩
    · obtain ⟨p, c, hp, hc, hanswered⟩ := h.rows r hr hs
      exact ⟨p, c, hp, hc, hanswered.append e⟩
    · exact (h.accounts i args phase t u p c hproc hx hp hc).append e
  unfold World.openAINext
  split
  · -- the provider answers
    next i model request x =>
    split
    · next hat =>
      obtain ⟨args, t, slot, hproc⟩ := atProvider_iff.mp hat
      rw [next_answer _ hproc]
      split
      · exact hstill
      · next hstopped =>
        refine ⟨h.distinct, hstill.rows, fun j args' phase t' u p c hq hx hp hc => ?_⟩
        rcases procs_advance hq with ⟨-, -, rfl⟩ | ⟨-, hold⟩
        · -- the counts are those of the body
          obtain ⟨rfl, hcarried⟩ :=
            answer_openAIReply ledgerEnv inference args model request x t slot hx
          obtain ⟨value, surrogate, rfl, hreports⟩ :=
            Llm.OpenAICompatibleProvider.execute_reports hcarried hp hc
          exact ⟨es, [], i, model, request, value, surrogate, args, slot, rfl,
            by simpa using hstopped, hproc, hreports⟩
        · exact hstill.accounts j args' phase t' u p c hold hx hp hc
    · exact hstill
  · next i reply =>
    split
    · exact hstill
    · next hat =>
      refine backed_unanswered h _ fun j reply' args t s heq hproc => hat ?_
      obtain ⟨rfl, -⟩ := Event.answer.inj heq
      exact atProvider_iff.mpr ⟨args, t, s, hproc⟩
  · next e' hnot =>
    exact backed_unanswered h _ fun i reply args t s heq _ => hnot i reply heq

theorem backed_run (ledgerEnv : LedgerEnv U) (inference : F → Option (Option Llm.Usage × Str))
    (es : List (OpenAIEvent U I F)) : Backed (openAIEnv ledgerEnv inference) es
      (World.empty.openAIRun (openAIEnv ledgerEnv inference) es) := by
  induction es using List.reverseRecOn with
  | nil =>
    constructor
    · exact List.nodup_nil
    · intro r hr
      cases hr
    · intro i args phase t u p c hproc
      cases hproc
  | append_singleton es e ih =>
    have hrun : World.empty.openAIRun (openAIEnv ledgerEnv inference) (es ++ [e])
        = (World.empty.openAIRun (openAIEnv ledgerEnv inference) es).openAINext
          (openAIEnv ledgerEnv inference) e := Traces.exec_append _ _ _ _
    rw [hrun]
    exact backed_next ih e

/-! ### The main result -/

/-- What settlements of a ledger do: counts that were recorded stay, `SETTLED` is absorbing, a conflicting
settlement raises and changes nothing, a repeated one changes nothing, and a reservation that lacks a
count stays `UNKNOWN`, with its full reservation counted. -/
structure Monotone (env : LedgerEnv U) (db : Ledger U) : Prop where
  grows : ∀ r ∈ db.reservations, ∀ calls, ∃ r' ∈ (db.run env calls).reservations, Grows r r'
  conflict : ∀ r ∈ db.reservations, ∀ counts, Conflicts r counts →
    transact (settle env r.ticket counts) db = (.error .reservationConflict, db)
  again : ∀ t counts db', transact (settle env t counts) db = (.ok (), db') →
    transact (settle env t counts) db' = (.ok (), db')
  unknown : ∀ t counts db', transact (settle env t counts) db = (.ok (), db') →
    counts.1 = none ∨ counts.2 = none → ∃ r ∈ db'.reservations, r.ticket = t ∧ r.state = .unknown
  lacking : ∀ r ∈ db.reservations, r.state = .unknown ∨ r.state = .settled →
    (r.state = .unknown ↔ r.actualInput = none ∨ r.actualOutput = none)
  full : ∀ r ∈ db.reservations, r.state = .unknown → CountsInFull r

/-- After any trace of governed executions with `OpenAICompatibleProvider`, a settled reservation has the
counts that the body of its provider call reports.  In every ledger that calls of any kind have left,
settlement is monotone. -/
theorem settlement_sound (env : LedgerEnv U) (inference : F → Option (Option Llm.Usage × Str)) :
    (∀ es : List (OpenAIEvent U I F),
      ∀ r ∈ (World.empty.openAIRun (openAIEnv env inference) es).ledger.reservations,
        r.state = .settled → ∃ prompt completion, r.actualInput = some prompt ∧
          r.actualOutput = some completion ∧
          Answered (openAIEnv env inference) es r.ticket prompt completion) ∧
    ∀ calls, Monotone env (Ledger.empty.run env calls) := by
  refine ⟨fun es => (backed_run env inference es).rows, fun calls => ?_⟩
  have hd : (Ledger.empty.run env calls).Distinct := distinct_run calls
  have hb : AllBooked (Ledger.empty.run env calls) := allBooked_run calls
  constructor
  · intro r hr more
    exact grows_run hd hb hr more
  · intro r hr counts hconflict
    exact settle_conflict hd hb hr hconflict
  · intro t counts db' h
    exact settle_repeat h
  · intro t counts db' h hnone
    exact settle_unknown hb h hnone
  · intro r hr hs
    have hbooked := hb r hr
    unfold Booked at hbooked
    rcases hs with hs | hs
    · rw [hs] at hbooked
      exact ⟨fun _ => hbooked.1, fun _ => hs⟩
    · -- a settled reservation has both counts
      rw [hs] at hbooked ⊢
      refine ⟨fun h => absurd h (by decide), fun hnone => ?_⟩
      obtain ⟨hinput, houtput, -⟩ := hbooked
      rcases hnone with hn | hn
      · rw [hn] at hinput
        cases hinput
      · rw [hn] at houtput
        cases houtput
  · intro r _ hs
    exact countsInFull_of_unknown hs

end run

end Polymind.Governance
