import Polymind.Governance.Equiv.Calls

/-!
# The states of a reservation

`stateOf` is the state of the reservation with a ticket, `Keyed` says whose it is.

* `keyed_next`: a ticket keeps its key;
* `stateOf_next`: the only changes of a state are a `transition` from it and a `settle` of a started call;
* `once_next`: a key has one reservation.
-/

namespace Polymind.Governance.Ledger

variable {U : Type} [DecidableEq U] {env : LedgerEnv U} {db db' : Ledger U} {t : U}

/-- What identifies an attempt: its tenant, its owner and the key of its identity. -/
abbrev Key (U : Type) := U × U × Str

def keyOf (r : Reservation U) : Key U := (r.tenant, r.owner, r.identityKey)

/-- The key of a request. -/
def requestKey (ids : Ids U) (principal : Security.Principal) (identity : Llm.CallIdentity U) : Key U :=
  ((principal.scope ids).tenant, (principal.scope ids).owner, identityKey ids identity)

def stateOf (db : Ledger U) (t : U) : Option ReservationState :=
  (Table.lookup Reservation.ticket db.reservations t).map Reservation.state

/-- The reservation with the ticket is that of the key. -/
def Keyed (db : Ledger U) (t : U) (key : Key U) : Prop :=
  ∃ r ∈ db.reservations, r.ticket = t ∧ keyOf r = key

/-- The provider was or may have been called. -/
def Paid (s : ReservationState) : Prop := s = .started ∨ s = .unknown ∨ s = .settled

theorem stateOf_eq_some (h : db.Distinct) {s : ReservationState} :
    db.stateOf t = some s ↔ ∃ r ∈ db.reservations, r.ticket = t ∧ r.state = s := by
  unfold stateOf
  rw [Option.map_eq_some_iff]
  constructor
  · rintro ⟨r, hr, hs⟩
    obtain ⟨hmem, hticket⟩ := (Table.lookup_eq_some_iff h).mp hr
    exact ⟨r, hmem, hticket, hs⟩
  · rintro ⟨r, hmem, hticket, hs⟩
    exact ⟨r, (Table.lookup_eq_some_iff h).mpr ⟨hmem, hticket⟩, hs⟩

theorem stateOf_of_keyed (h : db.Distinct) {key : Key U} (hk : db.Keyed t key) :
    ∃ s, db.stateOf t = some s := by
  obtain ⟨r, hr, hticket, -⟩ := hk
  exact ⟨r.state, (stateOf_eq_some h).mpr ⟨r, hr, hticket, rfl⟩⟩

/-! ### Keys -/

theorem keyed_next {key : Key U} (h : db.Keyed t key) (c : Call U) : (db.next env c).Keyed t key := by
  have hm := next_moves env db c
  generalize db.next env c = db' at hm
  obtain ⟨r, hr, hticket, hkey⟩ := h
  cases hm with
  | nothing => exact ⟨r, hr, hticket, hkey⟩
  | denies => exact ⟨r, hr, hticket, hkey⟩
  | reserves => exact ⟨r, List.mem_append_left _ hr, hticket, hkey⟩
  | transitions ticket before after =>
    by_cases hc : changes ticket before r = true
    · exact ⟨_, Table.mem_update.mpr (Or.inl ⟨r, hr, hc, rfl⟩), hticket, hkey⟩
    · exact ⟨r, Table.mem_update.mpr (Or.inr ⟨hr, by simpa using hc⟩), hticket, hkey⟩
  | settles ticket =>
    by_cases hc : r.ticket = ticket
    · exact ⟨_, Table.mem_update.mpr (Or.inl ⟨r, hr, by simpa using hc, rfl⟩), hticket, hkey⟩
    · exact ⟨r, Table.mem_update.mpr (Or.inr ⟨hr, by simpa using hc⟩), hticket, hkey⟩

/-- No two reservations have the same key. -/
def Once (db : Ledger U) : Prop := (db.reservations.map keyOf).Nodup

theorem once_next (h : db.Once) (c : Call U) : (db.next env c).Once := by
  have hm := next_moves env db c
  generalize db.next env c = db' at hm
  cases hm with
  | nothing => exact h
  | denies => exact h
  | reserves clock ticket args cost day month events hcost hnew hday hmonth hroom hticket =>
    apply Table.nodup_insert h
    intro r hr hkey
    unfold existing? at hnew
    have hnot := List.find?_eq_none.mp hnew r hr
    apply hnot
    simp only [keyOf, newRow, Prod.mk.injEq] at hkey
    simpa using hkey
  | transitions => exact Table.nodup_update (fun _ _ => rfl) h
  | settles => exact Table.nodup_update (fun _ _ => rfl) h

/-- A row after an update that keeps tickets. -/
theorem stateOf_update {cond : Reservation U → Bool} {set : Reservation U → Reservation U}
    {events : List (EventRow U)} (hset : ∀ r, cond r = true → (set r).ticket = r.ticket)
    {r : Reservation U} (h : Table.lookup Reservation.ticket db.reservations t = some r) :
    stateOf ⟨Table.update cond set db.reservations, events⟩ t
      = some (if cond r then set r else r).state := by
  unfold stateOf
  rw [Table.lookup_update hset, h]
  rfl

theorem stateOf_next {s : ReservationState} (h : db.stateOf t = some s) (c : Call U) :
    (db.next env c).stateOf t = some s ∨
    (∃ after, c = .transition t s after ∧ allowed s after = true ∧
      (db.next env c).stateOf t = some after) ∨
    (∃ counts s', c = .settle t counts ∧ Paid s ∧ (db.next env c).stateOf t = some s' ∧ Paid s') := by
  have hm := next_moves env db c
  generalize db.next env c = db' at hm
  obtain ⟨r, hr, rfl⟩ := Option.map_eq_some_iff.mp h
  have hticket : r.ticket = t := (Table.lookup_mem hr).2
  cases hm with
  | nothing => exact Or.inl h
  | denies => exact Or.inl h
  | reserves =>
    refine Or.inl ?_
    unfold stateOf Table.lookup
    rw [List.find?_append, show List.find? _ db.reservations = some r from hr]
    rfl
  | transitions ticket before after hallowed =>
    rw [stateOf_update (by intro _ _; rfl) hr]
    by_cases hc : changes ticket before r = true
    · obtain ⟨h1, h2⟩ := Bool.and_eq_true_iff.mp hc
      obtain rfl : r.ticket = ticket := of_decide_eq_true h1
      obtain rfl : r.state = before := of_decide_eq_true h2
      refine Or.inr (Or.inl ⟨after, by rw [hticket], hallowed, ?_⟩)
      rw [if_pos hc]
    · rw [if_neg hc]
      exact Or.inl rfl
  | settles ticket counts row cost hrow hstate hcost =>
    rw [stateOf_update (by intro _ _; rfl) hr]
    by_cases hc : r.ticket = ticket
    · -- the settled row is the row of the ticket
      obtain rfl : t = ticket := hticket.symm.trans hc
      obtain rfl : r = row := Option.some.inj (hr.symm.trans hrow)
      refine Or.inr (Or.inr ⟨counts, (settledRow counts cost r).state, rfl, ?_, ?_, ?_⟩)
      · rcases hstate with hs | hs
        · exact Or.inl hs
        · exact Or.inr (Or.inl hs)
      · rw [if_pos (by simpa using hc)]
      · unfold settledRow Paid
        cases cost <;> simp
    · rw [if_neg (by simpa using hc)]
      exact Or.inl rfl

/-- A transition that returned found its state and made the next. -/
theorem stateOf_transition (h : db.Distinct) {before after : ReservationState}
    (hstep : transact (transition t before after) db = (.ok (), db')) :
    db.stateOf t = some before ∧ db'.stateOf t = some after := by
  obtain ⟨hallowed, hone, rfl⟩ := transition_eq_ok (transact_eq_ok.mp hstep)
  obtain ⟨r, hr, hc⟩ : ∃ r ∈ db.reservations, changes t before r = true := by
    apply List.countP_pos_iff.mp
    omega
  obtain ⟨h1, h2⟩ := Bool.and_eq_true_iff.mp hc
  have hlookup := (Table.lookup_eq_some_iff h).mpr ⟨hr, of_decide_eq_true h1⟩
  constructor
  · exact (stateOf_eq_some h).mpr ⟨r, hr, of_decide_eq_true h1, of_decide_eq_true h2⟩
  · rw [stateOf_update (by intro _ _; rfl) hlookup, if_pos hc]

/-- The ticket that `reserve` returns is that of the key of the request. -/
theorem keyed_reserve {clock : Readings} {fresh : U} {args : ReserveArgs U}
    (h : db.reserve env clock fresh args = (.ok t, db')) :
    db'.Keyed t (requestKey env.toIds args.principal args.identity) := by
  unfold reserve at h
  split at h
  · cases h
  · split at h
    · next heq =>
      cases h
      rcases reserveBody_eq_ok (transact_eq_ok.mp heq) with ⟨row, hrow, hr, rfl⟩ | ⟨hr, -⟩ |
        ⟨hr, -, -, day, month, events, -, -, -, rfl⟩
      · obtain rfl := Option.some.inj hr
        have hfound := List.find?_some hrow
        simp only [decide_eq_true_eq] at hfound
        refine ⟨row, List.mem_of_find?_eq_some hrow, rfl, ?_⟩
        unfold keyOf requestKey
        rw [hfound.1, hfound.2.1, hfound.2.2]
      · cases hr
      · obtain rfl := Option.some.inj hr
        exact ⟨_, List.mem_append_right _ (List.mem_singleton_self _), rfl, rfl⟩
    · cases h
    · cases h

end Polymind.Governance.Ledger
