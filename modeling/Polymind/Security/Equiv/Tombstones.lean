import Polymind.Security.Equiv.Invariant

/-!
# Tombstones are permanent and every change is audited

A document that is not active stays so along every run (`gone_run`), and no call that needs it active
succeeds (`refused_of_gone`).  The ledger grows within its limit (`audit_run`).
`authority_invariants` collects what holds in every reachable state.
-/

namespace Polymind.Security

variable {U : Type} [DecidableEq U] {env : AuthorityEnv U} {draws : Draws U}

/-- The calls that need the document to be active: a snapshot with it, an action on it, a share of it, and
its registration. -/
def Call.needs (document : U) : Call U → Prop
  | .snapshot _ (some documentIds) _ => ∃ d ∈ documentIds, d.key = some document
  | .authorize _ (.value action) (.id d) => action.onDocument = true ∧ d.key = some document
  | .share _ d _ _ => d.key = some document
  | .registerDocument _ (some (registered, _)) => registered = document
  | _ => False

/-- The transactions of a method. -/
def Method.bodies (m : Method U) : List (Body U) := m.body :: m.denial.toList

/-! ### Refusals -/

section Refusals

variable {t : Tables U} {u : U} {row : DocumentRow U}

/-- A document that is not active passes no check. -/
theorem checkDocument_gone (hrow : t.document? (some u) = some row) (hgone : row.state ≠ .active)
    {now : ℚ} {principal : Arg Principal} {action : Arg Action} {d : IdArg U} (hd : d.key = some u)
    {p : Principal} {found : DocumentRow U} :
    checkDocument env now principal action d t ≠ .ok (p, found) := by
  intro h
  obtain ⟨-, -, rfl, hfound, -, hactive⟩ := checkDocument_ok h
  rw [show found.document = u from Option.some.inj hd, hrow] at hfound
  cases hfound
  exact hgone hactive

theorem snapshotDocuments_gone (hrow : t.document? (some u) = some row) (hgone : row.state ≠ .active)
    {principal : Arg Principal} {action : Arg Action} {ds : List (IdArg U)}
    (hds : ∃ d ∈ ds, d.key = some u) {i : Nat} {docs : List (IdArg U × Scope U × Nat)} :
    snapshotDocuments env draws.expiry principal action t i ds ≠ .ok docs := by
  induction ds generalizing i docs with
  | nil =>
    obtain ⟨d, hd, -⟩ := hds
    cases hd
  | cons d ds ih =>
    intro h
    unfold snapshotDocuments at h
    split at h
    · cases h
    · next found hfound =>
      obtain ⟨d', hd', hkey⟩ := hds
      rcases List.mem_cons.mp hd' with rfl | hd'
      · exact checkDocument_gone hrow hgone hkey hfound
      · obtain ⟨rest, hrest, -⟩ := map_eq_ok.mp h
        exact ih ⟨d', hd', hkey⟩ hrest

theorem checkAction_gone (hrow : t.document? (some u) = some row) (hgone : row.state ≠ .active)
    {principal : Arg Principal} {action : Action} {d : IdArg U} (haction : action.onDocument = true)
    (hd : d.key = some u) : checkAction env draws.expiry principal (.value action) (.id d) t ≠ .ok () := by
  intro h
  unfold checkAction at h
  split at h
  · cases h
  · -- an action on documents goes to the check of the document
    cases action
    case documentRead | documentAnalyze | documentShare | documentDelete =>
      obtain ⟨found, hfound, -⟩ := map_eq_ok.mp h
      exact checkDocument_gone hrow hgone hd hfound
    all_goals cases haction

omit [DecidableEq U] in
/-- A call whose transaction commits nothing but a denial raises. -/
theorem run_error {m : Method U} {db : Db U}
    (hbody : ∀ answer db', m.check = .ok () → m.body db = .ok (answer, db') → ∃ e, answer = .error e) :
    ∃ e, (m.run draws db).1 = .error e := by
  have hattempt : ∃ e, (m.attempt draws db).1 = .error e := by
    unfold Method.attempt
    split
    · exact ⟨_, rfl⟩
    · next hcheck =>
      unfold transaction
      split
      · exact ⟨_, rfl⟩
      · unfold transact
        cases hrun : m.body db with
        | error e => exact ⟨e, rfl⟩
        | ok result => exact hbody result.1 result.2 hcheck hrun
  unfold Method.run
  split
  · split
    · exact ⟨_, rfl⟩
    · exact ⟨_, rfl⟩
  · exact hattempt

/-- No call that needs a document to be active succeeds when it is not. -/
theorem refused_of_gone {db : Db U} (hrow : db.document? (some u) = some row)
    (hgone : row.state ≠ .active) {call : Call U} (hneeds : call.needs u) :
    ∃ e, (db.call env (call, draws)).1 = .error e := by
  refine run_error fun answer db' hcheck hbody => ?_
  cases call with
  | snapshot principal documentIds action =>
    cases documentIds with
    | none => cases hneeds
    | some ds =>
      obtain ⟨db₁, -, heq⟩ := map_eq_ok.mp hbody
      cases htake : takeSnapshot env draws.expiry principal ds action db.toTables with
      | error e =>
        simp only [Option.getD_some, htake] at heq
        cases heq
        exact ⟨_, rfl⟩
      | ok s =>
        unfold takeSnapshot at htake
        split at htake
        · cases htake
        · obtain ⟨docs, hdocs, -⟩ := map_eq_ok.mp htake
          exact absurd hdocs (snapshotDocuments_gone hrow hgone hneeds)
  | authorize principal action resource =>
    cases action with
    | other n => cases hneeds
    | value a =>
      cases resource with
      | scope s => cases hneeds
      | id d =>
        obtain ⟨db₁, -, heq⟩ := map_eq_ok.mp hbody
        cases hdecision : checkAction env draws.expiry principal (.value a) (.id d) db.toTables with
        | error e =>
          simp only [hdecision, Except.isOk, Except.toBool] at heq
          cases heq
          exact ⟨_, rfl⟩
        | ok _ => exact absurd hdecision (checkAction_gone hrow hgone hneeds.1 hneeds.2)
  | share principal d grantee revoke =>
    cases grantee with
    | uuid grantee =>
      have hbody : shareBody env draws principal d grantee revoke db = .ok (answer, db') := hbody
      unfold shareBody at hbody
      split at hbody
      · cases hbody
      · next found hfound => exact absurd hfound (checkDocument_gone hrow hgone hneeds)
    | text grantee => cases hbody
    | other n => cases hbody
  | registerDocument operator document =>
    cases document with
    | none => cases hneeds
    | some document =>
      obtain ⟨registered, scope⟩ := document
      obtain rfl : registered = u := hneeds
      have hbody : registerDocumentBody env draws operator registered scope db = .ok (answer, db') :=
        hbody
      unfold registerDocumentBody at hbody
      split at hbody
      · cases hbody
      · split at hbody
        · cases hbody
        · split at hbody
          · cases hbody
          · rw [hrow] at hbody
            simp only at hbody
            rw [if_pos (Or.inr (Or.inr hgone))] at hbody
            cases hbody
  | auditAuthentication | register | revalidate | tombstone | trackPurge | disablePrincipal =>
    cases hneeds

end Refusals

/-! ### Runs -/

/-- A document that is not active is never active again. -/
theorem gone_run (env : AuthorityEnv U) {db : Db U} (hs : Sound db.toTables) {u : U} {row : DocumentRow U}
    (hrow : db.document? (some u) = some row) (hgone : row.state ≠ .active)
    (later : List (Call U × Draws U)) :
    ∃ row', (db.run env later).document? (some u) = some row' ∧ row'.state ≠ .active := by
  obtain ⟨hmem, hid⟩ := (document?_eq_some_iff hs.toKeyed).mp hrow
  obtain ⟨row', hrow', hevolves⟩ := (evolves_run env hs later).documents row hmem
  refine ⟨row', ?_, hevolves.gone hgone⟩
  rw [document?_eq_some_iff (sound_run env hs later).toKeyed]
  exact ⟨hrow', hevolves.document.trans hid⟩

theorem logs_run (env : AuthorityEnv U) (db : Db U) (later : List (Call U × Draws U)) : Logs env db (db.run env later) :=
  Traces.exec_invariant (Logs env db) (fun db' event _ h => h.trans (call_spec env db' event).2.1)
    (Traces.along_true db later) (Or.inl rfl)

theorem audit_run (env : AuthorityEnv U) (db : Db U) (later : List (Call U × Draws U)) :
    db.audit <+: (db.run env later).audit := by
  rcases logs_run env db later with h | ⟨row, rows, h, -⟩
  · rw [h]
  · rw [h]
    exact List.prefix_append ..

theorem audit_le (events : List (Call U × Draws U)) :
    (Db.empty.run env events).audit.length ≤ env.auditLimit := by
  rcases logs_run env Db.empty events with h | ⟨row, rows, -, h⟩
  · rw [h]
    exact Nat.zero_le _
  · exact h

/-- In every reachable state: documents have the tenant of their owner; an open grant is on an active
document, for a principal of its tenant; a document that is not active stays so, and no call that needs
it active succeeds; a transaction that changes the tables inserts an audit row; the ledger never shrinks
and stays within its limit; and a call that raises leaves the tables as they were. -/
theorem authority_invariants (env : AuthorityEnv U) (events : List (Call U × Draws U)) :
    let db := Db.empty.run env events
    (∀ d ∈ db.documents, db.OfTenant d.owner d.tenant) ∧
    (∀ g ∈ db.grants, g.revoked = none → ∃ d ∈ db.documents,
      d.document = g.document ∧ d.state = .active ∧ db.OfTenant g.grantee d.tenant) ∧
    (∀ u row, db.document? (some u) = some row → row.state ≠ .active →
      ∀ later : List (Call U × Draws U),
        (∃ row', (db.run env later).document? (some u) = some row' ∧ row'.state ≠ .active) ∧
        ∀ call draws, Call.needs u call →
          ∃ e, ((db.run env later).call env (call, draws)).1 = .error e) ∧
    (∀ (call : Call U) (draws : Draws U), ∀ body ∈ (call.method env draws).bodies, ∀ answer db',
      body db = .ok (answer, db') →
        db'.toTables = db.toTables ∨ ∃ row rows, db'.audit = db.audit ++ row :: rows) ∧
    (db.audit.length ≤ env.auditLimit ∧
      ∀ later : List (Call U × Draws U), db.audit <+: (db.run env later).audit) ∧
    ∀ event e, (db.call env event).1 = .error e → (db.next env event).toTables = db.toTables := by
  have hs : Sound (Db.empty.run env events).toTables := sound_run env sound_empty events
  refine ⟨hs.owned, hs.live, ?_, ?_, ⟨audit_le events, audit_run env _⟩, ?_⟩
  · intro u row hrow hgone later
    obtain ⟨row', hrow', hgone'⟩ := gone_run env hs hrow hgone later
    exact ⟨⟨row', hrow', hgone'⟩, fun call draws hneeds => refused_of_gone hrow' hgone' hneeds⟩
  · intro call draws body hbody answer db' hrun
    rcases List.mem_cons.mp hbody with rfl | hdenial
    · exact (body_commits hrun).audited
    · exact Or.inl (denial_commits (Option.mem_toList.mp hdenial) hrun).2
  · exact fun event => (call_spec env _ event).2.2

end Polymind.Security
