import Polymind.Governance.Ledger
import Polymind.Lib.Except

/-!
# What the calls of the governance ledger do

`Moves` gives the effect of every call that changes the ledger, with what it found; `next_moves` says
that there is no other.  `distinct_next`: tickets stay distinct.
-/

namespace Polymind.Governance.Ledger

open Traces

variable {U : Type} [DecidableEq U] {env : LedgerEnv U} {db db' : Ledger U}

/-- The rows of a ticket in a state. -/
def changes (ticket : U) (before : ReservationState) (r : Reservation U) : Bool :=
  r.ticket = ticket && r.state = before

/-- No count of the row that an earlier settlement left is given another value. -/
def Agrees (row : Reservation U) (counts : Counts) : Prop :=
  row.state = .unknown →
    contradicts row.actualInput counts.1 = false ∧ contradicts row.actualOutput counts.2 = false

/-- The effect of a call. -/
inductive Moves (env : LedgerEnv U) (db : Ledger U) : Call U → Ledger U → Prop
  | nothing (c : Call U) : Moves env db c db
  | denies (clock : Readings) (ticket : U) (args : ReserveArgs U) (events : List (EventRow U)) :
      Moves env db (.reserve clock ticket args) { db with events }
  | reserves (clock : Readings) (ticket : U) (args : ReserveArgs U) (cost day month : ℚ)
      (events : List (EventRow U)) (hcost : checkReserve env clock args = .ok cost)
      (hnew : db.existing? env args = none) (hday : Calendar.dayStart clock.now = some day)
      (hmonth : Calendar.monthStart clock.now = some month)
      (hroom : db.denied env args cost clock.now day month = false)
      (hticket : ∀ r ∈ db.reservations, r.ticket ≠ ticket) :
      Moves env db (.reserve clock ticket args)
        ⟨db.reservations ++ [newRow env args ticket cost clock.now], events⟩
  | transitions (ticket : U) (before after : ReservationState)
      (hallowed : allowed before after = true)
      (hone : db.reservations.countP (changes ticket before) = 1) :
      Moves env db (.transition ticket before after) { db with
        reservations := Table.update (changes ticket before) (fun r => { r with state := after })
          db.reservations }
  | settles (ticket : U) (counts : Counts) (row : Reservation U) (cost : Option ℚ)
      (hrow : db.reservations.find? (fun r => r.ticket = ticket) = some row)
      (hstate : row.state = .started ∨ row.state = .unknown)
      (hcost : settledCost env row counts = .ok cost) (hagrees : Agrees row counts)
      (hvalid : validCount counts.1 = true ∧ validCount counts.2 = true) :
      Moves env db (.settle ticket counts) { db with
        reservations := Table.update (fun r => r.ticket = ticket) (settledRow counts cost)
          db.reservations }

omit [DecidableEq U] in
theorem event_eq_ok {scope : Scope U} {action : String} {time : ℚ}
    (h : db.event env scope action time = .ok db') : ∃ events, db' = { db with events } := by
  unfold event at h
  split at h
  · cases h
  · cases h
    exact ⟨_, rfl⟩

/-- A body of `reserve` that returns: it finds the reservation, denies the call, or reserves. -/
theorem reserveBody_eq_ok {clock : Readings} {ticket : U} {args : ReserveArgs U} {cost : ℚ}
    {r : Option U} (h : reserveBody env clock ticket args cost db = .ok (r, db')) :
    (∃ row, db.existing? env args = some row ∧ r = some row.ticket ∧ db' = db) ∨
    (r = none ∧ ∃ events, db' = { db with events }) ∨
    (r = some ticket ∧ db.existing? env args = none ∧
      (∀ r ∈ db.reservations, r.ticket ≠ ticket) ∧
      ∃ day month events, Calendar.dayStart clock.now = some day ∧
        Calendar.monthStart clock.now = some month ∧
        db.denied env args cost clock.now day month = false ∧
        db' = ⟨db.reservations ++ [newRow env args ticket cost clock.now], events⟩) := by
  unfold reserveBody at h
  split at h
  · next row hrow =>
    split at h
    · cases h
    · cases h
      exact Or.inl ⟨row, hrow, rfl, rfl⟩
  · next hnew =>
    split at h
    · next day month hday hmonth =>
      simp only at h
      split at h
      · obtain ⟨db₁, hevent, heq⟩ := map_eq_ok.mp h
        cases heq
        exact Or.inr (Or.inl ⟨rfl, event_eq_ok hevent⟩)
      · next hroom =>
        split at h
        · cases h
        · next hticket =>
          obtain ⟨db₁, hevent, heq⟩ := map_eq_ok.mp h
          cases heq
          obtain ⟨events, rfl⟩ := event_eq_ok hevent
          refine Or.inr (Or.inr ⟨rfl, hnew, ?_, day, month, events, hday, hmonth, ?_, rfl⟩)
          · simpa using hticket
          · simpa using hroom
    · cases h

theorem transition_eq_ok {ticket : U} {before after : ReservationState}
    (h : transition ticket before after db = .ok ((), db')) :
    allowed before after = true ∧ db.reservations.countP (changes ticket before) = 1 ∧
    db' = { db with
      reservations := Table.update (changes ticket before) (fun r => { r with state := after })
        db.reservations } := by
  unfold transition at h
  split at h
  · cases h
  · next hallowed =>
    simp only at h
    split at h
    · cases h
    · next hone =>
      cases h
      exact ⟨by simpa using hallowed, not_not.mp hone, rfl⟩

/-- A body of `settle` that returns: it repeats a settlement, or settles a started call. -/
theorem settle_eq_ok {ticket : U} {counts : Counts} (h : settle env ticket counts db = .ok ((), db')) :
    ∃ row, db.reservations.find? (fun r => r.ticket = ticket) = some row ∧
      ((row.state = .settled ∧
        counts = (row.actualInput.map Int.ofNat, row.actualOutput.map Int.ofNat) ∧ db' = db) ∨
      ((row.state = .started ∨ row.state = .unknown) ∧ Agrees row counts ∧
        (validCount counts.1 = true ∧ validCount counts.2 = true) ∧
        ∃ cost, settledCost env row counts = .ok cost ∧ db' = { db with
          reservations := Table.update (fun r => r.ticket = ticket) (settledRow counts cost)
            db.reservations })) := by
  unfold settle at h
  split at h
  · cases h
  · next hvalid =>
    simp only [not_or, not_not] at hvalid
    split at h
    · cases h
    · next row hrow =>
      refine ⟨row, hrow, ?_⟩
      split at h
      · next hstate =>
        split at h
        · cases h
        · next hsame =>
          cases h
          exact Or.inl ⟨hstate, not_not.mp hsame, rfl⟩
      · next hstate =>
        split at h
        · cases h
        · obtain ⟨cost, hcost, heq⟩ := bind_eq_ok.mp h
          cases heq
          have hagrees : Agrees row counts := by
            intro hunknown
            rw [hstate] at hunknown
            cases hunknown
          exact Or.inr ⟨Or.inl hstate, hagrees, hvalid, cost, hcost, rfl⟩
      · next hstate =>
        split at h
        · cases h
        · next hclash =>
          obtain ⟨cost, hcost, heq⟩ := bind_eq_ok.mp h
          cases heq
          have hagrees : Agrees row counts := by
            intro hunknown
            simpa [hunknown] using hclash
          exact Or.inr ⟨Or.inr hstate, hagrees, hvalid, cost, hcost, rfl⟩
      · cases h

/-- The ledger after `reserve` is the one after its transaction. -/
theorem reserve_snd {clock : Readings} {ticket : U} {args : ReserveArgs U} {cost : ℚ}
    (h : checkReserve env clock args = .ok cost) :
    (db.reserve env clock ticket args).2
      = (transact (reserveBody env clock ticket args cost) db).2 := by
  unfold reserve
  rw [h]
  simp only
  split
  · next heq => rw [heq]
  · next heq => rw [heq]
  · next heq => rw [heq]

theorem next_moves (env : LedgerEnv U) (db : Ledger U) (c : Call U) :
    Moves env db c (db.next env c) := by
  cases c with
  | reserve clock ticket args =>
    show Moves env db _ (db.reserve env clock ticket args).2
    cases hcheck : checkReserve env clock args with
    | error e =>
      unfold reserve
      rw [hcheck]
      exact .nothing _
    | ok cost =>
      rw [reserve_snd hcheck]
      apply transact_relates
      · exact .nothing _
      intro r db' h
      rcases reserveBody_eq_ok h with ⟨row, -, -, rfl⟩ | ⟨-, events, rfl⟩ |
        ⟨-, hnew, hticket, day, month, events, hday, hmonth, hroom, rfl⟩
      · exact .nothing _
      · exact .denies clock ticket args events
      · exact .reserves clock ticket args cost day month events hcheck hnew hday hmonth hroom hticket
  | transition ticket before after =>
    apply transact_relates
    · exact .nothing _
    intro r db' h
    obtain ⟨hallowed, hone, rfl⟩ := transition_eq_ok h
    exact .transitions ticket before after hallowed hone
  | settle ticket counts =>
    apply transact_relates
    · exact .nothing _
    intro r db' h
    obtain ⟨row, hrow, ⟨-, -, rfl⟩ | ⟨hstate, hagrees, hvalid, cost, hcost, rfl⟩⟩ := settle_eq_ok h
    · exact .nothing _
    · exact .settles ticket counts row cost hrow hstate hcost hagrees hvalid

/-! ### Tickets -/

/-- No two reservations have the same ticket. -/
def Distinct (db : Ledger U) : Prop := (db.reservations.map Reservation.ticket).Nodup

theorem distinct_next (h : db.Distinct) (c : Call U) : (db.next env c).Distinct := by
  have hm := next_moves env db c
  generalize db.next env c = db' at hm
  cases hm with
  | nothing => exact h
  | denies => exact h
  | reserves clock ticket args cost day month events hcost hnew hday hmonth hroom hticket =>
    exact Table.nodup_insert h hticket
  | transitions => exact Table.nodup_update (fun _ _ => rfl) h
  | settles => exact Table.nodup_update (fun _ _ => rfl) h

theorem distinct_run (calls : List (Call U)) : (empty.run env calls).Distinct :=
  exec_invariant Distinct (fun _ c _ h => distinct_next h c) (along_true _ calls) List.nodup_nil

end Polymind.Governance.Ledger
