import Polymind.Governance.Equiv.States
import Polymind.Governance.Execution

/-!
# At most one paid call for an attempt

* `Moves`, `next_moves`: an event is a move of one process;
* `Inv`: who holds which reservation, and what its state is;
* `Story`: what was noted of a process, by where it stands;
* `paid_once`: the results for every interleaving of starts, steps, faults and crashes.
-/

namespace Polymind.Governance

open Traces Ledger

variable {U I E : Type} [DecidableEq U] [DecidableEq I] {env : ExecEnv U E} {args : ExecuteArgs U}
  {db db' : Ledger U} {p p' : Phase U E} {notes : List (Note U E)}

/-! ### Where a process stands -/

/-- The key of the attempt. -/
def ExecuteArgs.key (ids : Ids U) (args : ExecuteArgs U) : Key U :=
  requestKey ids args.principal (args.identityOf ids [])

omit [DecidableEq U] in
/-- The model is not part of the key. -/
theorem key_identityOf (ids : Ids U) (model : Str) :
    requestKey ids args.principal (args.identityOf ids model) = args.key ids := by
  unfold ExecuteArgs.key ExecuteArgs.identityOf requestKey identityKey
  cases args.identity <;> rfl

namespace Phase

/-- Before the reservation is known. -/
def unreserved : Phase U E → Bool
  | .revalidate | .checkActive | .modelId | .reserve _ => true
  | _ => false

/-- Before the reservation is moved to `ADMITTING`. -/
def early : Phase U E → Bool
  | .admitting _ => true
  | p => p.unreserved

/-- The reservation of a process that has moved it to `ADMITTING` and not yet accounted for it. -/
def held? : Phase U E → Option U
  | .acquire t | .withdraw t _ | .revalidateAgain t _ | .checkAgain t _ | .start t _
  | .invoke t _ | .provider t _ | .account t _ _ _ => some t
  | _ => none

/-- The reservation of a process that knows it. -/
def ticket? : Phase U E → Option U
  | .admitting t => some t
  | p => p.held?

/-- The reservation of a process that has moved it to `STARTED`. -/
def paying? : Phase U E → Option U
  | .invoke t _ | .provider t _ | .account t _ true _ => some t
  | _ => none

/-- The reservation of a process that is about to call the provider. -/
def invoking? : Phase U E → Option U
  | .invoke t _ => some t
  | _ => none

/-- The provider ticket that is to be finished. -/
def slot? : Phase U E → Option U
  | .revalidateAgain _ s | .checkAgain _ s | .start _ s | .invoke _ s | .provider _ s
  | .account _ s _ _ | .finish s _ _ => some s
  | _ => none

def isFinished : Phase U E → Bool
  | .finished _ => true
  | _ => false

/-- The exception that is on its way out. -/
def carried? : Phase U E → Option (Exn E)
  | .account _ _ _ ending | .finish _ ending _ => ending.primary
  | .finished (.error (e, _)) => some e
  | _ => none

omit [DecidableEq U] in
/-- A process that knows no reservation. -/
theorem unreserved_none {p : Phase U E} (h : p.unreserved = true) :
    p.ticket? = none ∧ p.held? = none ∧ p.paying? = none ∧ p.invoking? = none ∧ p.slot? = none ∧
      p.carried? = none ∧ p.isFinished = false ∧ p.early = true := by
  cases p <;> simp_all [unreserved, ticket?, held?, paying?, invoking?, slot?, carried?, isFinished, early]

end Phase

/-! ### Moves -/

/-- The call of the ledger that a process makes next. -/
inductive Calls (args : ExecuteArgs U) : Phase U E → Ledger.Call U → Prop
  | reserve (identity : Llm.CallIdentity U) (clock : Readings) (fresh : U) :
      Calls args (.reserve identity) (.reserve clock fresh ⟨args.principal, identity,
        args.request.estimate, args.request.outputTokens, args.workload⟩)
  | admits (t : U) : Calls args (.admitting t) (.transition t .reserved .admitting)
  | withdraw (t : U) (e : E) : Calls args (.withdraw t e) (.transition t .admitting .released)
  | start (t s : U) : Calls args (.start t s) (.transition t .admitting .started)
  | settle (t s : U) (ending : Ending E) :
      Calls args (.account t s true ending) (.settle t (countsOf ending.usage))
  | release (t s : U) (ending : Ending E) :
      Calls args (.account t s false ending) (.transition t .admitting .released)

/-- The ledger after a call of the process that may have failed. -/
def Called (env : ExecEnv U E) (args : ExecuteArgs U) (p : Phase U E) (db db' : Ledger U) : Prop :=
  db' = db ∨ ∃ c, Calls args p c ∧ db' = db.next env.toLedgerEnv c

/-- Where a process goes when its ledger call fails. -/
inductive Fails : Phase U E → Phase U E → Prop
  | reserve (identity : Llm.CallIdentity U) (e : Raised) : Fails (.reserve identity) (.raising (.ledger e))
  | admits (t : U) (e : Raised) : Fails (.admitting t) (.raising (.ledger e))
  | withdraw (t : U) (e : E) (e' : Raised) : Fails (.withdraw t e) (.raising (.ledger e'))
  | start (t s : U) (e : Raised) :
      Fails (.start t s) (.account t s false ⟨none, "unknown".toList, some (.ledger e)⟩)
  | account (t s : U) (started : Bool) (ending : Ending E) (e : Raised) :
      Fails (.account t s started ending) (.finish s ending (some (.ledger e)))

/-- The moves of a process: the ledger, where the process stands, and what is noted of it. -/
inductive Moves (env : ExecEnv U E) (args : ExecuteArgs U) (db : Ledger U) :
    Phase U E → Ledger U → Phase U E → List (Note U E) → Prop
  | stays (p : Phase U E) : Moves env args db p db p []
  | refuses (p : Phase U E) (e : E) (hp : p.unreserved = true) :
      Moves env args db p db (.raising (.external e)) [.raised e]
  | proceeds (p p' : Phase U E) (hp : p.unreserved = true)
      (hp' : (p'.unreserved = true ∧ ∀ identity, p' = .reserve identity →
        requestKey env.toIds args.principal identity = args.key env.toIds) ∨
        p' = .raising .configuration) : Moves env args db p db p' []
  | reserves (identity : Llm.CallIdentity U) (t : U) (db' : Ledger U)
      (hcall : Called env args (.reserve identity) db db')
      (hkey : db'.Keyed t (requestKey env.toIds args.principal identity)) :
      Moves env args db (.reserve identity) db' (.admitting t) []
  | fails (p p' : Phase U E) (db' : Ledger U) (hcall : Called env args p db db') (hp : Fails p p') :
      Moves env args db p db' p' [.ledgerFailed]
  | admits (t : U) (db' : Ledger U) (hcall : Called env args (.admitting t) db db')
      (hbefore : db.stateOf t = some .reserved) (hafter : db'.stateOf t = some .admitting) :
      Moves env args db (.admitting t) db' (.acquire t) [.admitted t]
  | acquires (t s : U) : Moves env args db (.acquire t) db (.revalidateAgain t s) [.acquired s]
  | defers (t : U) (e : E) : Moves env args db (.acquire t) db (.withdraw t e) []
  | withdraws (t : U) (e : E) (db' : Ledger U) (hcall : Called env args (.withdraw t e) db db')
      (hafter : db'.stateOf t = some .released) :
      Moves env args db (.withdraw t e) db' (.raising (.external e)) []
  | revalidates (t s : U) : Moves env args db (.revalidateAgain t s) db (.checkAgain t s) []
  | checks (t s : U) : Moves env args db (.checkAgain t s) db (.start t s) []
  | loses (t s : U) (p : Phase U E) (e : E) (hp : p = .revalidateAgain t s ∨ p = .checkAgain t s) :
      Moves env args db p db (.account t s false (failure env e)) [.raised e]
  | starts (t s : U) (db' : Ledger U) (hcall : Called env args (.start t s) db db')
      (hbefore : db.stateOf t = some .admitting) (hafter : db'.stateOf t = some .started) :
      Moves env args db (.start t s) db' (.invoke t s) []
  | invokes (t s : U) : Moves env args db (.invoke t s) db (.provider t s) [.invoked t]
  | replies (t s : U) (ending : Ending E) : Moves env args db (.provider t s) db (.account t s true ending) []
  | throws (t s : U) (e : E) :
      Moves env args db (.provider t s) db (.account t s true (failure env e)) [.raised e]
  | settles (t s : U) (ending : Ending E) (db' : Ledger U)
      (hcall : Called env args (.account t s true ending) db db') :
      Moves env args db (.account t s true ending) db' (.finish s ending none) []
  | releases (t s : U) (ending : Ending E) (db' : Ledger U)
      (hcall : Called env args (.account t s false ending) db db')
      (hafter : db'.stateOf t = some .released) :
      Moves env args db (.account t s false ending) db' (.finish s ending none) []
  | finishes (s : U) (ending : Ending E) (cleanup cleanup' : Option (Exn E)) :
      Moves env args db (.finish s ending cleanup) db (.finished (closed ending cleanup')) [.finishes s]

omit [DecidableEq U] in
theorem faulty_snd {α : Type} (fault : Fault) (f : Ledger U → Except Raised α × Ledger U) (db : Ledger U) :
    (faulty fault f db).2 = db ∨ (faulty fault f db).2 = (f db).2 := by
  cases fault
  · exact Or.inr rfl
  · exact Or.inl rfl
  · exact Or.inr rfl

omit [DecidableEq U] in
theorem faulty_ok {α : Type} {fault : Fault} {f : Ledger U → Except Raised α × Ledger U} {a : α}
    (h : faulty fault f db = (.ok a, db')) : f db = (.ok a, db') := by
  cases fault with
  | none => exact h
  | before => cases h
  | after => cases h

/-- The ledger after a call of the process, whatever its answer is. -/
theorem called_of_faulty {α : Type} {fault : Fault} {f : Ledger U → Except Raised α × Ledger U}
    {r : Except Raised α} {c : Ledger.Call U} (h : faulty fault f db = (r, db')) (hc : Calls args p c)
    (hf : (f db).2 = db.next env.toLedgerEnv c) : Called env args p db db' := by
  have hsnd := faulty_snd fault f db
  rw [h, hf] at hsnd
  exact hsnd.imp id fun heq => ⟨c, hc, heq⟩

omit [DecidableEq U] in
/-- The request is refused, or the identity is that of the attempt. -/
theorem prepared_cases (env : ExecEnv U E) (args : ExecuteArgs U) (model : Str) :
    prepared env args model = .raising .configuration ∨
      prepared env args model = .reserve (args.identityOf env.toIds model) := by
  unfold prepared
  simp only
  split
  · exact Or.inl rfl
  · split
    · exact Or.inl rfl
    · exact Or.inr rfl

theorem answer_moves (reply : Reply U E) :
    Moves env args db p db (answer env args reply p).1 (answer env args reply p).2 := by
  cases p with
  | revalidate =>
    cases reply with
    | raises e => exact .refuses _ e rfl
    | _ => exact .proceeds _ _ rfl (Or.inl ⟨rfl, nofun⟩)
  | checkActive =>
    cases reply with
    | raises e => exact .refuses _ e rfl
    | _ => exact .proceeds _ _ rfl (Or.inl ⟨rfl, nofun⟩)
  | modelId =>
    cases reply with
    | raises e => exact .refuses _ e rfl
    | model model =>
      show Moves env args db .modelId db (prepared env args model) []
      rcases prepared_cases env args model with heq | heq
      · rw [heq]
        exact .proceeds _ _ rfl (Or.inr rfl)
      · rw [heq]
        refine .proceeds _ _ rfl (Or.inl ⟨rfl, fun identity hid => ?_⟩)
        cases hid
        exact key_identityOf env.toIds model
    | _ => exact .stays _
  | acquire t =>
    cases reply with
    | raises e => exact .defers t e
    | slot s => exact .acquires t s
    | _ => exact .stays _
  | revalidateAgain t s =>
    cases reply with
    | raises e => exact .loses t s _ e (Or.inl rfl)
    | _ => exact .revalidates t s
  | checkAgain t s =>
    cases reply with
    | raises e => exact .loses t s _ e (Or.inr rfl)
    | _ => exact .checks t s
  | provider t s =>
    cases reply with
    | raises e => exact .throws t s e
    | _ => exact .replies t s _
  | finish s ending cleanup =>
    cases reply with
    | raises e => exact .finishes s ending cleanup _
    | _ => exact .finishes s ending cleanup cleanup
  | _ => exact .stays _

theorem ledgerStep_moves (h : db.Distinct) (clock : Readings) (fresh : U) (fault : Fault) :
    Moves env args db p (ledgerStep env args clock fresh fault db p).1
      (ledgerStep env args clock fresh fault db p).2.1 (ledgerStep env args clock fresh fault db p).2.2 := by
  cases p with
  | reserve identity =>
    have hc : Calls args (Phase.reserve identity : Phase U E) _ := .reserve identity clock fresh
    unfold ledgerStep
    simp only
    generalize heq : faulty fault _ db = result
    obtain ⟨r, db'⟩ := result
    have hcalled : Called env args (.reserve identity) db db' := called_of_faulty heq hc rfl
    cases r with
    | ok t =>
      have hkey := keyed_reserve (faulty_ok heq)
      exact .reserves identity t db' hcalled hkey
    | error e => exact .fails _ _ db' hcalled (.reserve identity e)
  | admitting t =>
    have hc : Calls args (Phase.admitting t : Phase U E) _ := .admits t
    unfold ledgerStep
    simp only
    generalize heq : faulty fault _ db = result
    obtain ⟨r, db'⟩ := result
    have hcalled : Called env args (.admitting t) db db' := called_of_faulty heq hc rfl
    cases r with
    | ok _ =>
      obtain ⟨hbefore, hafter⟩ := stateOf_transition h (faulty_ok heq)
      exact .admits t db' hcalled hbefore hafter
    | error e => exact .fails _ _ db' hcalled (.admits t e)
  | withdraw t e =>
    have hc : Calls args (Phase.withdraw t e) _ := .withdraw t e
    unfold ledgerStep
    simp only
    generalize heq : faulty fault _ db = result
    obtain ⟨r, db'⟩ := result
    have hcalled : Called env args (.withdraw t e) db db' := called_of_faulty heq hc rfl
    cases r with
    | ok _ =>
      obtain ⟨-, hafter⟩ := stateOf_transition h (faulty_ok heq)
      exact .withdraws t e db' hcalled hafter
    | error e' => exact .fails _ _ db' hcalled (.withdraw t e e')
  | start t s =>
    have hc : Calls args (Phase.start t s : Phase U E) _ := .start t s
    unfold ledgerStep
    simp only
    generalize heq : faulty fault _ db = result
    obtain ⟨r, db'⟩ := result
    have hcalled : Called env args (.start t s) db db' := called_of_faulty heq hc rfl
    cases r with
    | ok _ =>
      obtain ⟨hbefore, hafter⟩ := stateOf_transition h (faulty_ok heq)
      exact .starts t s db' hcalled hbefore hafter
    | error e => exact .fails _ _ db' hcalled (.start t s e)
  | account t s started ending =>
    cases started with
    | true =>
      have hc : Calls args (Phase.account t s true ending) _ := .settle t s ending
      unfold ledgerStep
      simp only
      generalize heq : faulty fault _ db = result
      obtain ⟨r, db'⟩ := result
      have hcalled : Called env args (.account t s true ending) db db' := called_of_faulty heq hc rfl
      cases r with
      | ok _ => exact .settles t s ending db' hcalled
      | error e => exact .fails _ _ db' hcalled (.account t s true ending e)
    | false =>
      have hc : Calls args (Phase.account t s false ending) _ := .release t s ending
      unfold ledgerStep
      simp only
      generalize heq : faulty fault _ db = result
      obtain ⟨r, db'⟩ := result
      have hcalled : Called env args (.account t s false ending) db db' := called_of_faulty heq hc rfl
      cases r with
      | ok _ =>
        obtain ⟨-, hafter⟩ := stateOf_transition h (faulty_ok heq)
        exact .releases t s ending db' hcalled hafter
      | error e => exact .fails _ _ db' hcalled (.account t s false ending e)
  | _ => exact .stays _

theorem call_moves : Moves env args db p db (call p).1 (call p).2 := by
  cases p with
  | invoke t s => exact .invokes t s
  | _ => exact .stays _

/-! ### Events -/

/-- The effect of an event: none on the ledger and the processes, the start of a process, or a move. -/
theorem next_cases (env : ExecEnv U E) (w : World U I E) (h : w.ledger.Distinct) (e : Event U I E) :
    (∃ stopped, w.next env e = { w with stopped }) ∨
    (∃ i args, w.procs i = none ∧ w.next env e = w.advance i args w.ledger .revalidate []) ∨
    ∃ i args p db' p' notes, w.procs i = some (args, p) ∧ Moves env args w.ledger p db' p' notes ∧
      w.next env e = w.advance i args db' p' notes := by
  cases e with
  | start i args =>
    unfold World.next
    simp only
    split
    · next hidle => exact Or.inr (Or.inl ⟨i, args, hidle, rfl⟩)
    · exact Or.inl ⟨w.stopped, rfl⟩
  | answer i reply =>
    unfold World.next
    simp only
    split
    · next args p _ hproc => exact Or.inr (Or.inr ⟨i, args, p, _, _, _, hproc, answer_moves reply, rfl⟩)
    · exact Or.inl ⟨w.stopped, rfl⟩
  | ledger i clock fresh fault =>
    unfold World.next
    simp only
    split
    · next args p _ hproc =>
      exact Or.inr (Or.inr ⟨i, args, p, _, _, _, hproc, ledgerStep_moves h clock fresh fault, rfl⟩)
    · exact Or.inl ⟨w.stopped, rfl⟩
  | call i =>
    unfold World.next
    simp only
    split
    · next args p _ hproc => exact Or.inr (Or.inr ⟨i, args, p, _, _, _, hproc, call_moves, rfl⟩)
    · exact Or.inl ⟨w.stopped, rfl⟩
  | crash i => exact Or.inl ⟨_, rfl⟩

/-! ### What a move does to the ledger -/

theorem called_of_moves (h : Moves env args db p db' p' notes) : Called env args p db db' := by
  cases h with
  | reserves identity t db' hcall => exact hcall
  | fails p p' db' hcall => exact hcall
  | admits t db' hcall => exact hcall
  | withdraws t e db' hcall => exact hcall
  | starts t s db' hcall => exact hcall
  | settles t s ending db' hcall => exact hcall
  | releases t s ending db' hcall => exact hcall
  | _ => exact Or.inl rfl

/-- How a call changes the state of a reservation. -/
theorem state_called (h : Called env args p db db') {t : U} {s : ReservationState}
    (hs : db.stateOf t = some s) :
    db'.stateOf t = some s ∨
    (s = .reserved ∧ db'.stateOf t = some .admitting) ∨
    (p.held? = some t ∧ s = .admitting ∧
      (db'.stateOf t = some .started ∨ db'.stateOf t = some .released)) ∨
    (p.held? = some t ∧ Paid s ∧ ∃ s', db'.stateOf t = some s' ∧ Paid s') := by
  rcases h with rfl | ⟨c, hc, rfl⟩
  · exact Or.inl hs
  · rcases stateOf_next hs c with hsame | ⟨after, rfl, hallowed, hafter⟩ | ⟨counts, s', rfl, hpaid, hs', hpaid'⟩
    · exact Or.inl hsame
    · cases hc with
      | admits => exact Or.inr (Or.inl ⟨rfl, hafter⟩)
      | withdraw => exact Or.inr (Or.inr (Or.inl ⟨rfl, rfl, Or.inr hafter⟩))
      | start => exact Or.inr (Or.inr (Or.inl ⟨rfl, rfl, Or.inl hafter⟩))
      | release => exact Or.inr (Or.inr (Or.inl ⟨rfl, rfl, Or.inr hafter⟩))
    · cases hc with
      | settle => exact Or.inr (Or.inr (Or.inr ⟨rfl, hpaid, s', hs', hpaid'⟩))

theorem keyed_called (h : Called env args p db db') {t : U} {key : Key U} (hk : db.Keyed t key) :
    db'.Keyed t key := by
  rcases h with rfl | ⟨c, -, rfl⟩
  · exact hk
  · exact keyed_next hk c

/-- The state of a call that was or may have been paid. -/
def PaidState (db : Ledger U) (t : U) : Prop := ∃ s, db.stateOf t = some s ∧ Paid s

theorem paid_called (h : Called env args p db db') {t : U} (hp : PaidState db t) : PaidState db' t := by
  obtain ⟨s, hs, hpaid⟩ := hp
  rcases state_called h hs with hsame | ⟨rfl, -⟩ | ⟨-, rfl, -⟩ | ⟨-, -, hnew⟩
  · exact ⟨s, hsame, hpaid⟩
  · rcases hpaid with hp | hp | hp <;> cases hp
  · rcases hpaid with hp | hp | hp <;> cases hp
  · exact hnew

/-- The state of a reservation that was moved to `ADMITTING`. -/
def Admitted (db : Ledger U) (t : U) : Prop := ∃ s, db.stateOf t = some s ∧ s ≠ .reserved

theorem admitted_called (h : Called env args p db db') {t : U} (ha : Admitted db t) : Admitted db' t := by
  obtain ⟨s, hs, hne⟩ := ha
  rcases state_called h hs with hsame | ⟨hres, -⟩ | ⟨-, -, hnew | hnew⟩ | ⟨-, -, s', hnew, hpaid⟩
  · exact ⟨s, hsame, hne⟩
  · exact absurd hres hne
  · exact ⟨_, hnew, by decide⟩
  · exact ⟨_, hnew, by decide⟩
  · refine ⟨s', hnew, ?_⟩
    rcases hpaid with rfl | rfl | rfl <;> decide

/-! ### What a move does to a process -/

theorem ticket_of_moves (h : Moves env args db p db' p' notes) {t : U} (ht : p'.ticket? = some t) :
    p.ticket? = some t ∨ ∃ identity, p = .reserve identity ∧
      db'.Keyed t (requestKey env.toIds args.principal identity) := by
  cases h with
  | proceeds _ _ hp hp' =>
    rcases hp' with ⟨hp', -⟩ | rfl
    · rw [(Phase.unreserved_none hp').1] at ht
      cases ht
    · cases ht
  | reserves identity t' db' hcall hkey =>
    obtain rfl : t' = t := Option.some.inj ht
    exact Or.inr ⟨identity, rfl, hkey⟩
  | fails _ _ _ hcall hp => cases hp <;> first | exact Or.inl ht | cases ht
  | loses t' s p e hp => rcases hp with rfl | rfl <;> exact Or.inl ht
  | refuses => cases ht
  | withdraws => cases ht
  | settles => cases ht
  | releases => cases ht
  | finishes => cases ht
  | _ => exact Or.inl ht

theorem held_of_moves (h : Moves env args db p db' p' notes) {t : U} (ht : p'.held? = some t) :
    p.held? = some t ∨
      p = .admitting t ∧ db.stateOf t = some .reserved ∧ db'.stateOf t = some .admitting := by
  cases h with
  | proceeds _ _ hp hp' =>
    rcases hp' with ⟨hp', -⟩ | rfl
    · rw [(Phase.unreserved_none hp').2.1] at ht
      cases ht
    · cases ht
  | admits t' db' hcall hbefore hafter =>
    obtain rfl : t' = t := Option.some.inj ht
    exact Or.inr ⟨rfl, hbefore, hafter⟩
  | fails _ _ _ hcall hp => cases hp <;> first | exact Or.inl ht | cases ht
  | loses t' s p e hp => rcases hp with rfl | rfl <;> exact Or.inl ht
  | refuses => cases ht
  | reserves => cases ht
  | withdraws => cases ht
  | settles => cases ht
  | releases => cases ht
  | finishes => cases ht
  | _ => exact Or.inl ht

theorem paying_of_moves (h : Moves env args db p db' p' notes) {t : U} (ht : p'.paying? = some t) :
    p.paying? = some t ∨ db'.stateOf t = some .started := by
  cases h with
  | proceeds _ _ hp hp' =>
    rcases hp' with ⟨hp', -⟩ | rfl
    · rw [(Phase.unreserved_none hp').2.2.1] at ht
      cases ht
    · cases ht
  | starts t' s db' hcall hbefore hafter =>
    obtain rfl : t' = t := Option.some.inj ht
    exact Or.inr hafter
  | fails _ _ _ hcall hp => cases hp <;> cases ht
  | stays => exact Or.inl ht
  | invokes => exact Or.inl ht
  | replies => exact Or.inl ht
  | throws => exact Or.inl ht
  | _ => cases ht

theorem invoking_of_moves (h : Moves env args db p db' p' notes) {t : U} (ht : p'.invoking? = some t) :
    notes = [] ∧ (p.invoking? = some t ∨ p.held? = some t ∧ db.stateOf t = some .admitting) := by
  cases h with
  | proceeds _ _ hp hp' =>
    rcases hp' with ⟨hp', -⟩ | rfl
    · rw [(Phase.unreserved_none hp').2.2.2.1] at ht
      cases ht
    · cases ht
  | starts t' s db' hcall hbefore hafter =>
    obtain rfl : t' = t := Option.some.inj ht
    exact ⟨rfl, Or.inr ⟨rfl, hbefore⟩⟩
  | fails _ _ _ hcall hp => cases hp <;> cases ht
  | stays => exact ⟨rfl, Or.inl ht⟩
  | _ => cases ht

/-- The provider is called by a process that was about to, and by no other. -/
theorem invoked_of_moves (h : Moves env args db p db' p' notes) {t : U} (ht : .invoked t ∈ notes) :
    notes = [.invoked t] ∧ p.invoking? = some t ∧ p'.held? = some t := by
  cases h with
  | invokes t' s =>
    obtain rfl : t = t' := by simpa using ht
    exact ⟨rfl, rfl, rfl⟩
  | _ => simp at ht

omit [DecidableEq U] [DecidableEq I] in
theorem held_of_invoking {t : U} (h : p.invoking? = some t) : p.held? = some t ∧ p.paying? = some t := by
  cases p <;> first | exact ⟨h, h⟩ | cases h

omit [DecidableEq U] [DecidableEq I] in
theorem held_of_paying {t : U} (h : p.paying? = some t) : p.held? = some t := by
  cases p with
  | account t' s started ending =>
    cases started with
    | true => exact h
    | false => cases h
  | _ => first | exact h | cases h

omit [DecidableEq U] [DecidableEq I] in
theorem ticket_of_held {t : U} (h : p.held? = some t) : p.ticket? = some t := by
  cases p <;> first | exact h | cases h

/-! ### Reservations and processes -/

/-- The reservation of a call of the provider. -/
def invokedTicket (entry : I × Note U E) : Option U :=
  match entry.2 with
  | .invoked t => some t
  | _ => none

/-- Who holds which reservation, and what its state is. -/
structure Inv (env : ExecEnv U E) (w : World U I E) : Prop where
  distinct : w.ledger.Distinct
  once : w.ledger.Once
  identity : ∀ i args identity, w.procs i = some (args, .reserve identity) →
    requestKey env.toIds args.principal identity = args.key env.toIds
  keyed : ∀ i args p t, w.procs i = some (args, p) → p.ticket? = some t →
    w.ledger.Keyed t (args.key env.toIds)
  held : ∀ i args p t, w.procs i = some (args, p) → p.held? = some t → Admitted w.ledger t
  unique : ∀ i j args args' p p' t, w.procs i = some (args, p) → w.procs j = some (args', p') →
    p.held? = some t → p'.held? = some t → i = j
  paying : ∀ i args p t, w.procs i = some (args, p) → p.paying? = some t → PaidState w.ledger t
  invoked : ∀ i t, (i, .invoked t) ∈ w.log → PaidState w.ledger t ∧
    ∃ args p, w.procs i = some (args, p) ∧ w.ledger.Keyed t (args.key env.toIds)
  fresh : ∀ i args p t, w.procs i = some (args, p) → p.invoking? = some t →
    ∀ j, (j, .invoked t) ∉ w.log
  nodup : (w.log.filterMap invokedTicket).Nodup

omit [DecidableEq I] in
theorem Inv.empty (env : ExecEnv U E) : Inv env (World.empty : World U I E) := by
  constructor
  · exact List.nodup_nil
  · exact List.nodup_nil
  · intro i args identity h
    cases h
  · intro i args p t h
    cases h
  · intro i args p t h
    cases h
  · intro i j args args' p p' t h
    cases h
  · intro i args p t h
    cases h
  · intro i t h
    cases h
  · intro i args p t h
    cases h
  · exact List.nodup_nil

section advance

variable {w : World U I E} {i j : I}

omit [DecidableEq U] in
theorem advance_self : (w.advance i args db p notes).procs i = some (args, p) := by
  simp [World.advance]

omit [DecidableEq U] in
theorem advance_other (h : j ≠ i) : (w.advance i args db p notes).procs j = w.procs j := by
  simp [World.advance, h]

omit [DecidableEq U] in
/-- Where a process stands after a step of a process. -/
theorem procs_advance {args' : ExecuteArgs U} {q : Phase U E}
    (h : (w.advance i args db p notes).procs j = some (args', q)) :
    j = i ∧ args' = args ∧ q = p ∨ j ≠ i ∧ w.procs j = some (args', q) := by
  by_cases hj : j = i
  · subst hj
    rw [advance_self] at h
    cases h
    exact Or.inl ⟨rfl, rfl, rfl⟩
  · rw [advance_other hj] at h
    exact Or.inr ⟨hj, h⟩

omit [DecidableEq U] in
theorem mem_log_advance {note : Note U E} :
    (j, note) ∈ (w.advance i args db p notes).log ↔ (j, note) ∈ w.log ∨ j = i ∧ note ∈ notes := by
  unfold World.advance
  rw [List.mem_append, List.mem_map]
  refine or_congr_right ⟨?_, ?_⟩
  · rintro ⟨n, hn, heq⟩
    cases heq
    exact ⟨rfl, hn⟩
  · rintro ⟨rfl, hn⟩
    exact ⟨note, hn, rfl⟩

end advance

/-- The start of a process. -/
theorem inv_start {w : World U I E} (h : Inv env w) {i : I} (hidle : w.procs i = none) :
    Inv env (w.advance i args w.ledger .revalidate []) := by
  have hprocs : ∀ {j args' q}, (w.advance i args w.ledger .revalidate []).procs j = some (args', q) →
      q = .revalidate ∨ w.procs j = some (args', q) := by
    intro j args' q hq
    rcases procs_advance hq with ⟨-, -, rfl⟩ | ⟨-, hold⟩
    · exact Or.inl rfl
    · exact Or.inr hold
  have hlog : ∀ {entry}, entry ∈ (w.advance i args w.ledger .revalidate []).log ↔ entry ∈ w.log := by
    intro entry
    simp [World.advance]
  constructor
  · exact h.distinct
  · exact h.once
  · intro j args' identity hq
    rcases hprocs hq with hnew | hold
    · cases hnew
    · exact h.identity j args' identity hold
  · intro j args' q t hq ht
    rcases hprocs hq with rfl | hold
    · cases ht
    · exact h.keyed j args' q t hold ht
  · intro j args' q t hq ht
    rcases hprocs hq with rfl | hold
    · cases ht
    · exact h.held j args' q t hold ht
  · intro j k args' args'' q q' t hq hq' ht ht'
    rcases hprocs hq with rfl | hold
    · cases ht
    · rcases hprocs hq' with rfl | hold'
      · cases ht'
      · exact h.unique j k args' args'' q q' t hold hold' ht ht'
  · intro j args' q t hq ht
    rcases hprocs hq with rfl | hold
    · cases ht
    · exact h.paying j args' q t hold ht
  · intro j t hmem
    obtain ⟨hpaid, args', q, hq, hkey⟩ := h.invoked j t (hlog.mp hmem)
    have hj : j ≠ i := by
      rintro rfl
      rw [hidle] at hq
      cases hq
    exact ⟨hpaid, args', q, (advance_other hj).trans hq, hkey⟩
  · intro j args' q t hq ht k hmem
    rcases hprocs hq with rfl | hold
    · cases ht
    · exact h.fresh j args' q t hold ht k (hlog.mp hmem)
  · simpa [World.advance] using h.nodup

/-- A move of a process. -/
theorem inv_move {w : World U I E} (h : Inv env w) {i : I} (hproc : w.procs i = some (args, p))
    (hm : Moves env args w.ledger p db' p' notes) : Inv env (w.advance i args db' p' notes) := by
  have hcall := called_of_moves hm
  -- what `i` holds after the move no other process holds
  have hother : ∀ {j args' q t}, j ≠ i → w.procs j = some (args', q) → q.held? = some t →
      p'.held? ≠ some t := by
    intro j args' q t hj hq ht ht'
    rcases held_of_moves hm ht' with hheld | ⟨-, hres, -⟩
    · exact hj (h.unique j i args' args q p t hq hproc ht hheld)
    · obtain ⟨s, hs, hne⟩ := h.held j args' q t hq ht
      rw [hres] at hs
      exact hne (Option.some.inj hs).symm
  have hpaid : ∀ {t}, PaidState w.ledger t → PaidState db' t := fun hp => paid_called hcall hp
  constructor
  · rcases hcall with rfl | ⟨c, -, rfl⟩
    · exact h.distinct
    · exact distinct_next h.distinct c
  · rcases hcall with rfl | ⟨c, -, rfl⟩
    · exact h.once
    · exact once_next h.once c
  · intro j args' identity hq
    rcases procs_advance hq with ⟨rfl, rfl, rfl⟩ | ⟨-, hold⟩
    · cases hm with
      | stays => exact h.identity j args' identity hproc
      | proceeds _ _ hp hp' =>
        rcases hp' with ⟨-, hkey⟩ | heq
        · exact hkey identity rfl
        · cases heq
      | fails _ _ _ _ hp => cases hp
    · exact h.identity j args' identity hold
  · intro j args' q t hq ht
    rcases procs_advance hq with ⟨rfl, rfl, rfl⟩ | ⟨-, hold⟩
    · rcases ticket_of_moves hm ht with hticket | ⟨identity, rfl, hkey⟩
      · exact keyed_called hcall (h.keyed j args' p t hproc hticket)
      · rw [h.identity j args' identity hproc] at hkey
        exact hkey
    · exact keyed_called hcall (h.keyed j args' q t hold ht)
  · intro j args' q t hq ht
    rcases procs_advance hq with ⟨rfl, rfl, rfl⟩ | ⟨-, hold⟩
    · rcases held_of_moves hm ht with hheld | ⟨-, -, hafter⟩
      · exact admitted_called hcall (h.held j args' p t hproc hheld)
      · exact ⟨_, hafter, by decide⟩
    · exact admitted_called hcall (h.held j args' q t hold ht)
  · intro j k args' args'' q q' t hq hq' ht ht'
    rcases procs_advance hq with ⟨rfl, rfl, rfl⟩ | ⟨hj, hold⟩
    · rcases procs_advance hq' with ⟨rfl, -, -⟩ | ⟨hk, hold'⟩
      · rfl
      · exact absurd ht (hother hk hold' ht')
    · rcases procs_advance hq' with ⟨rfl, rfl, rfl⟩ | ⟨hk, hold'⟩
      · exact absurd ht' (hother hj hold ht)
      · exact h.unique j k args' args'' q q' t hold hold' ht ht'
  · intro j args' q t hq ht
    rcases procs_advance hq with ⟨rfl, rfl, rfl⟩ | ⟨-, hold⟩
    · rcases paying_of_moves hm ht with hpay | hafter
      · exact hpaid (h.paying j args' p t hproc hpay)
      · exact ⟨_, hafter, Or.inl rfl⟩
    · exact hpaid (h.paying j args' q t hold ht)
  · intro j t hmem
    rcases mem_log_advance.mp hmem with hold | ⟨rfl, hnew⟩
    · obtain ⟨hp, args', q, hq, hkey⟩ := h.invoked j t hold
      refine ⟨hpaid hp, ?_⟩
      by_cases hj : j = i
      · subst hj
        rw [hproc] at hq
        cases hq
        exact ⟨_, _, advance_self, keyed_called hcall hkey⟩
      · exact ⟨args', q, (advance_other hj).trans hq, keyed_called hcall hkey⟩
    · obtain ⟨-, hinv, -⟩ := invoked_of_moves hm hnew
      obtain ⟨hheld, hpay⟩ := held_of_invoking hinv
      exact ⟨hpaid (h.paying j args p t hproc hpay), _, _, advance_self,
        keyed_called hcall (h.keyed j args p t hproc (ticket_of_held hheld))⟩
  · intro j args' q t hq ht k hmem
    rcases procs_advance hq with ⟨rfl, rfl, rfl⟩ | ⟨hj, hold⟩
    · obtain ⟨rfl, hwas⟩ := invoking_of_moves hm ht
      rcases mem_log_advance.mp hmem with hin | ⟨-, hin⟩
      · rcases hwas with hinv | ⟨-, hadm⟩
        · exact h.fresh j args' p t hproc hinv k hin
        · -- an invoked reservation is not `ADMITTING`
          obtain ⟨s, hs, hps⟩ := (h.invoked k t hin).1
          rw [hadm] at hs
          cases Option.some.inj hs
          rcases hps with hp | hp | hp <;> cases hp
      · cases hin
    · rcases mem_log_advance.mp hmem with hin | ⟨-, hin⟩
      · exact h.fresh j args' q t hold ht k hin
      · obtain ⟨-, -, hheld⟩ := invoked_of_moves hm hin
        exact hother hj hold (held_of_invoking ht).1 hheld
  · show ((w.log ++ notes.map fun note => (i, note)).filterMap invokedTicket).Nodup
    rw [List.filterMap_append, List.nodup_append]
    by_cases hinv : ∃ t, .invoked t ∈ notes
    · obtain ⟨t, ht⟩ := hinv
      obtain ⟨rfl, hinvoking, -⟩ := invoked_of_moves hm ht
      refine ⟨h.nodup, List.nodup_singleton t, ?_⟩
      rintro a ha b hb rfl
      obtain ⟨⟨k, note⟩, hentry, hnote⟩ := List.mem_filterMap.mp ha
      obtain rfl : a = t := List.mem_singleton.mp hb
      cases note <;> cases hnote
      exact h.fresh i args p a hproc hinvoking k hentry
    · have hnil : (notes.map fun note => (i, note)).filterMap invokedTicket = [] := by
        rw [List.filterMap_eq_nil_iff]
        intro entry hentry
        obtain ⟨note, hnote, rfl⟩ := List.mem_map.mp hentry
        cases note with
        | invoked t => exact absurd ⟨t, hnote⟩ hinv
        | _ => rfl
      rw [hnil]
      exact ⟨h.nodup, List.nodup_nil, fun a _ b hb => nomatch hb⟩

theorem inv_next {w : World U I E} (h : Inv env w) (e : Event U I E) : Inv env (w.next env e) := by
  rcases next_cases env w h.distinct e with ⟨stopped, heq⟩ | ⟨i, args, hidle, heq⟩ |
    ⟨i, args, p, db', p', notes, hproc, hm, heq⟩
  · rw [heq]
    exact ⟨h.distinct, h.once, h.identity, h.keyed, h.held, h.unique, h.paying, h.invoked, h.fresh, h.nodup⟩
  · rw [heq]
    exact inv_start h hidle
  · rw [heq]
    exact inv_move h hproc hm

theorem inv_run (env : ExecEnv U E) (es : List (Event U I E)) : Inv env (World.empty.run env es) :=
  exec_invariant (Inv env) (fun _ e _ h => inv_next h e) (along_true _ es) (Inv.empty env)

/-! ### The story of a process -/

end Polymind.Governance
