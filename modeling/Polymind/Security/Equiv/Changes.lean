import Polymind.Security.Authority
import Polymind.Lib.Except

/-!
# What the calls of the security authority do

`Change` gives every effect of a transaction on the tables, with what the transaction found.  A
committed transaction makes one change and logs it (`Commits`); `call_spec` says what that leaves of
a call with its two transactions.
-/

namespace Polymind.Security

variable {U : Type} [DecidableEq U] {env : AuthorityEnv U} {draws : Draws U}

namespace Tables

/-- The principal is one of the tenant. -/
def OfTenant (t : Tables U) (owner tenant : U) : Prop :=
  ∃ row ∈ t.principals, row.owner = owner ∧ row.tenant = tenant

/-- The grants of a document. -/
def grantsOf (t : Tables U) (document : U) : List (GrantRow U) :=
  t.grants.filter fun g => g.document = document

theorem ofTenant_of_lookup {t : Tables U} {owner : U} {row : PrincipalRow U}
    (h : t.principal? owner = some row) : t.OfTenant owner row.tenant := by
  obtain ⟨hmem, hkey⟩ := Table.lookup_mem h
  exact ⟨row, hmem, hkey, rfl⟩

theorem document?_mem {t : Tables U} {key : Option U} {row : DocumentRow U}
    (h : t.document? key = some row) : row ∈ t.documents ∧ key = some row.document := by
  cases key with
  | none => cases h
  | some u =>
    obtain ⟨hmem, hkey⟩ := Table.lookup_mem (show Table.lookup _ _ _ = _ from h)
    exact ⟨hmem, congrArg some hkey.symm⟩

theorem document?_self {t : Tables U} {key : Option U} {row : DocumentRow U}
    (h : t.document? key = some row) : t.document? (some row.document) = some row := by
  rw [← (document?_mem h).2]
  exact h

end Tables

/-- One more epoch for a principal, with other permissions and kind. -/
def reroled (owner : U) (permissions : Finset Action) (kind : Kind) (rows : List (PrincipalRow U)) :
    List (PrincipalRow U) :=
  Table.update (fun r => r.owner = owner)
    (fun r => { r with permissions, kind, epoch := r.epoch + 1 }) rows

/-- The grants after a revocation or its reversal. -/
def regranted (document grantee : U) (revoked : Option ℚ) (rows : List (GrantRow U)) :
    List (GrantRow U) :=
  Table.update (fun g => (g.document, g.grantee) = (document, grantee))
    (fun g => { g with revoked }) rows

/-- The documents after one of them moved to a state, by a number of epochs. -/
def moved (document : U) (state : DocumentState) (epochs : Nat) (rows : List (DocumentRow U)) :
    List (DocumentRow U) :=
  Table.update (fun r => r.document = document)
    (fun r => { r with state, epoch := r.epoch + epochs }) rows

/-- The grants after all those of a document were revoked. -/
def withdrawn (document : U) (time : ℚ) (rows : List (GrantRow U)) : List (GrantRow U) :=
  Table.update (fun g => g.document = document)
    (fun g => { g with revoked := g.revoked.or (some time) }) rows

/-- The principals after one of them was disabled. -/
def disabled (owner : U) (rows : List (PrincipalRow U)) : List (PrincipalRow U) :=
  Table.update (fun r => r.owner = owner ∧ r.disabled = false)
    (fun r => { r with disabled := true, epoch := r.epoch + 1 }) rows

/-- The effect of a transaction on the tables. -/
inductive Change (t : Tables U) : Tables U → Prop
  | nothing : Change t t
  | enrolls (row : PrincipalRow U) (hnew : t.principal? row.owner = none) :
      Change t { t with principals := t.principals ++ [row] }
  | reroles (owner : U) (permissions : Finset Action) (kind : Kind) :
      Change t { t with principals := reroled owner permissions kind t.principals }
  | registers (row : DocumentRow U) (hnew : t.document? (some row.document) = none)
      (howner : t.OfTenant row.owner row.tenant) :
      Change t { t with documents := t.documents ++ [row] }
  | grants (doc : DocumentRow U) (g : GrantRow U) (hdoc : t.document? (some doc.document) = some doc)
      (hactive : doc.state = .active) (hgrantee : t.OfTenant g.grantee doc.tenant)
      (hof : g.document = doc.document)
      (hnew : ∀ g' ∈ t.grants, (g'.document, g'.grantee) ≠ (g.document, g.grantee)) :
      Change t { t with
        grants := t.grants ++ [g]
        documents := bump doc.document t.documents }
  | regrants (doc : DocumentRow U) (grantee : U) (revoked : Option ℚ)
      (hdoc : t.document? (some doc.document) = some doc) (hactive : doc.state = .active)
      (hgrantee : t.OfTenant grantee doc.tenant) :
      Change t { t with
        grants := regranted doc.document grantee revoked t.grants
        documents := bump doc.document t.documents }
  | tombstones (doc : DocumentRow U) (time : ℚ) (hdoc : t.document? (some doc.document) = some doc)
      (hactive : doc.state = .active) :
      Change t { t with
        documents := moved doc.document .tombstoned 1 t.documents
        grants := withdrawn doc.document time t.grants }
  | purges (doc : DocumentRow U) (purge : List (PurgeRow U))
      (hdoc : t.document? (some doc.document) = some doc) (hgone : doc.state ≠ .active)
      (hpurge : purge = t.purge ∨ t.purge? doc.document = none ∧
        purge = t.purge ++ [purgeRow doc.document]) :
      Change t { t with purge, documents := moved doc.document .purgePending 0 t.documents }
  | disables (owner : U) : Change t { t with principals := disabled owner t.principals }

/-! ### Checks -/

section Checks

variable {t : Tables U} {now : ℚ} {principal : Arg Principal} {p : Principal}

theorem checkPrincipal_ok {row : PrincipalRow U}
    (h : checkPrincipal env now principal t = .ok (p, row)) :
    principal = .value p ∧ now < p.expires ∧ t.principal? (p.scope env.toIds).owner = some row ∧
      row.agrees env p = true := by
  unfold checkPrincipal at h
  split at h
  · cases h
  · next q =>
    split at h
    · cases h
    · next hexpires =>
      split at h
      · cases h
      · next found hfound =>
        cases h
        obtain ⟨hrow, hagrees⟩ := Option.filter_eq_some_iff.mp hfound
        exact ⟨rfl, not_le.mp hexpires, hrow, hagrees⟩

theorem agrees_tenant {row : PrincipalRow U} (h : row.agrees env p = true) :
    row.tenant = (p.scope env.toIds).tenant := by
  simp only [PrincipalRow.agrees, Bool.and_eq_true, beq_iff_eq] at h
  exact h.1.1.1.2

theorem checkDocument_ok {action : Arg Action} {documentId : IdArg U} {row : DocumentRow U}
    (h : checkDocument env now principal action documentId t = .ok (p, row)) :
    (∃ own, checkPrincipal env now principal t = .ok (p, own)) ∧
    (∃ a, action = .value a ∧ a.onDocument = true) ∧
    documentId = .uuid row.document ∧ t.document? (some row.document) = some row ∧
    row.tenant = (p.scope env.toIds).tenant ∧ row.state = .active := by
  unfold checkDocument at h
  split at h
  · cases h
  · next q own hown =>
    split at h
    · next action document =>
      simp only at h
      split at h
      · cases h
      · next found hfound =>
        obtain ⟨hrow, hfits⟩ := Option.filter_eq_some_iff.mp hfound
        obtain ⟨htenant, hstate⟩ : found.tenant = (q.scope env.toIds).tenant ∧ found.state = .active := by
          simpa using hfits
        split at h
        · cases h
        · next haction =>
          split at h
          · cases h
          · cases h
            obtain rfl : document = row.document := Option.some.inj (Tables.document?_mem hrow).2
            exact ⟨⟨own, hown⟩, ⟨action, rfl, not_not.mp haction⟩, rfl, hrow, htenant, hstate⟩
    · cases h

end Checks

/-! ### Committed transactions -/

/-- The ledger grew, within its limit, if it changed. -/
def Logs (env : AuthorityEnv U) (db db' : Db U) : Prop :=
  db'.audit = db.audit ∨
    ∃ row rows, db'.audit = db.audit ++ row :: rows ∧ db'.audit.length ≤ env.auditLimit

omit [DecidableEq U] in
theorem Logs.trans {db db' db'' : Db U} (h : Logs env db db') (h' : Logs env db' db'') :
    Logs env db db'' := by
  rcases h' with hsame | ⟨row, rows, hrows, hlimit⟩
  · rcases h with h | ⟨row, rows, hrows, hlimit⟩
    · exact Or.inl (hsame.trans h)
    · exact Or.inr ⟨row, rows, hsame.trans hrows, by rw [hsame]; exact hlimit⟩
  · rcases h with h | ⟨row', rows', hrows', -⟩
    · exact Or.inr ⟨row, rows, by rw [hrows, h], hlimit⟩
    · refine Or.inr ⟨row', rows' ++ row :: rows, ?_, hlimit⟩
      rw [hrows, hrows', List.append_assoc, List.cons_append]

/-- A committed transaction: it changes the tables, and if it does, it inserts an audit row; with a denial
it does not. -/
structure Commits (env : AuthorityEnv U) (db : Db U) (answer : Except Raised (Reply U)) (db' : Db U) :
    Prop where
  change : Change db.toTables db'.toTables
  logs : Logs env db db'
  audited : db'.toTables = db.toTables ∨ ∃ row rows, db'.audit = db.audit ++ row :: rows
  refused : ∀ e, answer = .error e → db'.toTables = db.toTables

section Commits

variable {db db' : Db U} {answer : Except Raised (Reply U)}

theorem record_eq_ok {event : U} {time : ℚ} {principal : Arg Principal} {action : Str}
    {resource : Option U} {outcome : Outcome}
    (h : db.record env event time principal action resource outcome = .ok db') :
    db.audit.length < env.auditLimit ∧ ∃ row, db' = { db with audit := db.audit ++ [row] } := by
  unfold Db.record at h
  split at h
  · cases h
  · next hroom =>
    cases h
    exact ⟨not_le.mp fun hfull => hroom (Or.inl hfull), _, rfl⟩

/-- A transaction that only inserts an audit row. -/
theorem Commits.of_record {event : U} {time : ℚ} {principal : Arg Principal} {action : Str}
    {resource : Option U} {outcome : Outcome}
    (h : (db.record env event time principal action resource outcome).map (fun db => (answer, db))
      = .ok (answer, db')) : Commits env db answer db' := by
  obtain ⟨db₁, hrecord, heq⟩ := map_eq_ok.mp h
  obtain ⟨hroom, row, rfl⟩ := record_eq_ok hrecord
  cases heq
  constructor
  · exact .nothing
  · refine Or.inr ⟨row, [], rfl, ?_⟩
    rw [List.length_append]
    exact hroom
  · exact Or.inl rfl
  · exact fun _ _ => rfl

/-- A transaction that ends with an audit row, after a change and perhaps other audit rows. -/
theorem Commits.of_close {db₁ : Db U} {principal : Arg Principal} {action : String}
    {resource : Option U} {reply : Reply U}
    (h : Db.close env draws principal action resource reply db₁ = .ok (answer, db'))
    (hchange : Change db.toTables db₁.toTables) (haudit : ∃ rows, db₁.audit = db.audit ++ rows) :
    Commits env db answer db' := by
  obtain ⟨rows, hrows⟩ := haudit
  obtain ⟨db₂, hrecord, heq⟩ := map_eq_ok.mp h
  obtain ⟨hroom, row, rfl⟩ := record_eq_ok hrecord
  cases heq
  have hlog : ∃ row' rows', db₁.audit ++ [row] = db.audit ++ row' :: rows' := by
    rw [hrows, List.append_assoc]
    rcases rows with _ | ⟨row', rows'⟩
    · exact ⟨row, [], rfl⟩
    · exact ⟨row', rows' ++ [row], rfl⟩
  constructor
  · exact hchange
  · obtain ⟨row', rows', heq⟩ := hlog
    refine Or.inr ⟨row', rows', heq, ?_⟩
    rw [List.length_append]
    exact hroom
  · exact Or.inr hlog
  · intro e he
    cases he

/-- A transaction that changes nothing. -/
theorem Commits.of_nothing : Commits env db answer db where
  change := .nothing
  logs := Or.inl rfl
  audited := Or.inl rfl
  refused := fun _ _ => rfl

/-! ### Bodies -/

theorem registerBody_commits {p : Principal} (h : registerBody env draws p db = .ok (answer, db')) :
    Commits env db answer db' := by
  unfold registerBody at h
  simp only at h
  split at h
  · split at h
    · cases h
    · split at h
      · exact .of_close h (.reroles _ _ _) ⟨[], (List.append_nil _).symm⟩
      · exact .of_close h .nothing ⟨[], (List.append_nil _).symm⟩
  · next hnew => exact .of_close h (.enrolls _ hnew) ⟨[], (List.append_nil _).symm⟩

theorem registerDocumentBody_commits {operator : Arg Principal} {document : U} {scope : Scope U}
    (h : registerDocumentBody env draws operator document scope db = .ok (answer, db')) :
    Commits env db answer db' := by
  unfold registerDocumentBody at h
  split at h
  · cases h
  · split at h
    · cases h
    · split at h
      · cases h
      · next owner howner =>
        obtain ⟨hrow, htenant⟩ := Option.filter_eq_some_iff.mp howner
        split at h
        · split at h
          · cases h
          · cases h
            exact .of_nothing
        · next hnew =>
          have hof : db.OfTenant scope.owner scope.tenant := by
            rw [← of_decide_eq_true htenant]
            exact Tables.ofTenant_of_lookup hrow
          exact .of_close h (.registers ⟨document, scope.tenant, scope.owner, 0, .active⟩ hnew hof)
            ⟨[], (List.append_nil _).symm⟩

theorem upsertGrant_eq_ok {row : GrantRow U} {grants grants' : List (GrantRow U)}
    (h : upsertGrant row grants = .ok grants') :
    grants' = regranted row.document row.grantee row.revoked grants ∨
    (grants' = grants ++ [row] ∧
      ∀ g ∈ grants, (g.document, g.grantee) ≠ (row.document, row.grantee)) := by
  unfold upsertGrant at h
  split at h
  · cases h
    exact Or.inl rfl
  · next hnew =>
    split at h
    · cases h
    · cases h
      refine Or.inr ⟨rfl, fun g hg heq => hnew ?_⟩
      exact List.any_eq_true.mpr ⟨g, hg, decide_eq_true heq⟩

theorem writeGrant_commits {principal : Arg Principal} {documentId : IdArg U} {doc : DocumentRow U}
    {grantee grantId : U} {revoke : Bool} (hdoc : db.document? (some doc.document) = some doc)
    (hactive : doc.state = .active) (hgrantee : db.OfTenant grantee doc.tenant)
    (h : writeGrant env draws principal documentId doc.document grantee grantId revoke db
      = .ok (answer, db')) : Commits env db answer db' := by
  unfold writeGrant at h
  split at h
  · cases h
  · next grants hgrants =>
    rcases upsertGrant_eq_ok hgrants with rfl | ⟨rfl, hnew⟩
    · exact .of_close h (.regrants doc grantee _ hdoc hactive hgrantee) ⟨[], (List.append_nil _).symm⟩
    · exact .of_close h (.grants doc _ hdoc hactive hgrantee rfl hnew) ⟨[], (List.append_nil _).symm⟩

theorem shareBody_commits {principal : Arg Principal} {documentId : IdArg U} {grantee : U}
    {revoke : Bool} (h : shareBody env draws principal documentId grantee revoke db = .ok (answer, db')) :
    Commits env db answer db' := by
  unfold shareBody at h
  split at h
  · cases h
  · next p doc hcheck =>
    obtain ⟨-, -, -, hdoc, htenant, hactive⟩ := checkDocument_ok hcheck
    split at h
    · cases h
    · next row hrow =>
      obtain ⟨hrow, hfits⟩ := Option.filter_eq_some_iff.mp hrow
      have hgrantee : db.OfTenant grantee doc.tenant := by
        rw [htenant, ← (of_decide_eq_true hfits).1]
        exact Tables.ofTenant_of_lookup hrow
      split at h
      · split at h
        · cases h
          exact .of_nothing
        · exact writeGrant_commits hdoc hactive hgrantee h
      · split at h
        · cases h
        · exact writeGrant_commits hdoc hactive hgrantee h

theorem tombstoneBody_commits {principal : Arg Principal} {documentId : IdArg U}
    (h : tombstoneBody env draws principal documentId db = .ok (answer, db')) :
    Commits env db answer db' := by
  unfold tombstoneBody at h
  split at h
  · cases h
  · split at h
    · cases h
    · next doc hdoc =>
      obtain ⟨hdoc, -⟩ := Option.filter_eq_some_iff.mp hdoc
      split at h
      · cases h
      · split at h
        · cases h
          exact .of_nothing
        · next hactive =>
          split at h
          · cases h
          · next db₁ hrecord =>
            -- the row of the request is in the ledger when the document moves
            obtain ⟨-, row, rfl⟩ := record_eq_ok hrecord
            exact .of_close h (.tombstones doc _ (Tables.document?_self hdoc) (not_not.mp hactive))
              ⟨[row], rfl⟩

theorem trackPurgeBody_commits {operator : Arg Principal} {documentId : IdArg U}
    (h : trackPurgeBody env draws operator documentId db = .ok (answer, db')) :
    Commits env db answer db' := by
  unfold trackPurgeBody at h
  split at h
  · cases h
  · split at h
    · cases h
    · next doc hdoc =>
      obtain ⟨hdoc, hfits⟩ := Option.filter_eq_some_iff.mp hdoc
      split at h
      · cases h
      · simp only at h
        refine .of_close h (.purges doc _ (Tables.document?_self hdoc) (of_decide_eq_true hfits).2 ?_)
          ⟨[], (List.append_nil _).symm⟩
        cases hfound : db.purge? doc.document with
        | none => exact Or.inr ⟨rfl, rfl⟩
        | some found => exact Or.inl rfl

theorem disablePrincipalBody_commits {operator : Arg Principal} {owner : IdArg U}
    (h : disablePrincipalBody env draws operator owner db = .ok (answer, db')) :
    Commits env db answer db' := by
  unfold disablePrincipalBody at h
  split at h
  · cases h
  · split at h
    · split at h
      · cases h
      · split at h
        · cases h
        · exact .of_close h (.disables _) ⟨[], (List.append_nil _).symm⟩
    · cases h

end Commits

/-! ### Methods -/

/-- The first transaction of a call. -/
theorem body_commits {call : Call U} {db db' : Db U} {answer : Except Raised (Reply U)}
    (h : (call.method env draws).body db = .ok (answer, db')) : Commits env db answer db' := by
  cases call with
  | auditAuthentication accepted =>
    obtain ⟨db₁, hrecord, heq⟩ := map_eq_ok.mp h
    cases heq
    exact .of_record (map_eq_ok.mpr ⟨_, hrecord, rfl⟩)
  | register principal =>
    cases principal with
    | value p => exact registerBody_commits h
    | other n => cases h
  | registerDocument operator document =>
    cases document with
    | some document => exact registerDocumentBody_commits h
    | none => cases h
  | authorize principal action resource =>
    obtain ⟨db₁, hrecord, heq⟩ := map_eq_ok.mp h
    cases heq
    exact .of_record (map_eq_ok.mpr ⟨_, hrecord, rfl⟩)
  | snapshot principal documentIds action =>
    obtain ⟨db₁, hrecord, heq⟩ := map_eq_ok.mp h
    cases heq
    exact .of_record (map_eq_ok.mpr ⟨_, hrecord, rfl⟩)
  | revalidate s =>
    obtain ⟨_, -, heq⟩ := map_eq_ok.mp h
    cases heq
    exact .of_nothing
  | share principal documentId grantee revoke =>
    cases grantee with
    | uuid grantee => exact shareBody_commits h
    | text grantee => cases h
    | other n => cases h
  | tombstone principal documentId => exact tombstoneBody_commits h
  | trackPurge operator documentId => exact trackPurgeBody_commits h
  | disablePrincipal operator owner => exact disablePrincipalBody_commits h

/-- The transaction that records a denial only inserts an audit row. -/
theorem denial_commits {call : Call U} {body : Body U} (hdenial : (call.method env draws).denial = some body)
    {db db' : Db U} {answer : Except Raised (Reply U)} (h : body db = .ok (answer, db')) :
    Commits env db answer db' ∧ db'.toTables = db.toTables := by
  have hcommits : ∀ {action : String} {principal : Arg Principal} {resource : Option U},
      (db.record env (draws.uuid 2) (draws.stamp 4) principal action.toList resource .denied).map
        (fun db => ((.ok .nothing : Except Raised (Reply U)), db)) = .ok (answer, db') →
      Commits env db answer db' ∧ db'.toTables = db.toTables := by
    intro action principal resource h
    obtain ⟨db₁, hrecord, heq⟩ := map_eq_ok.mp h
    cases heq
    refine ⟨.of_record (map_eq_ok.mpr ⟨_, hrecord, rfl⟩), ?_⟩
    obtain ⟨-, row, rfl⟩ := record_eq_ok hrecord
    rfl
  cases call with
  | auditAuthentication accepted => cases hdenial
  | register principal => cases hdenial
  | registerDocument operator document => exact hcommits (Option.some.inj hdenial ▸ h)
  | authorize principal action resource => cases hdenial
  | snapshot principal documentIds action => cases hdenial
  | revalidate s => cases hdenial
  | share principal documentId grantee revoke => exact hcommits (Option.some.inj hdenial ▸ h)
  | tombstone principal documentId => exact hcommits (Option.some.inj hdenial ▸ h)
  | trackPurge operator documentId => exact hcommits (Option.some.inj hdenial ▸ h)
  | disablePrincipal operator owner => exact hcommits (Option.some.inj hdenial ▸ h)

/-! ### Calls -/

/-- What a transaction of a call leaves: its one change, or the state as it was. -/
theorem transaction_spec {k : Nat} {body : Body U} {db : Db U}
    (hbody : ∀ {answer db'}, body db = .ok (answer, db') → Commits env db answer db') :
    Change db.toTables (transaction draws k body db).2.toTables ∧
      Logs env db (transaction draws k body db).2 ∧
      ∀ e, (transaction draws k body db).1 = .error e →
        (transaction draws k body db).2.toTables = db.toTables := by
  unfold transaction
  split
  · exact ⟨.nothing, Or.inl rfl, fun _ _ => rfl⟩
  · unfold transact
    cases hrun : body db with
    | error e => exact ⟨.nothing, Or.inl rfl, fun _ _ => rfl⟩
    | ok result =>
      have hcommits := hbody hrun
      exact ⟨hcommits.change, hcommits.logs, hcommits.refused⟩

/-- What a call leaves: one change of the tables, logged; a call that raises leaves them alone. -/
theorem call_spec (env : AuthorityEnv U) (db : Db U) (event : Call U × Draws U) :
    Change db.toTables (db.next env event).toTables ∧ Logs env db (db.next env event) ∧
      ∀ e, (db.call env event).1 = .error e → (db.next env event).toTables = db.toTables := by
  obtain ⟨call, draws⟩ := event
  have hattempt : Change db.toTables ((call.method env draws).attempt draws db).2.toTables ∧
      Logs env db ((call.method env draws).attempt draws db).2 ∧
      ∀ e, ((call.method env draws).attempt draws db).1 = .error e →
        ((call.method env draws).attempt draws db).2.toTables = db.toTables := by
    unfold Method.attempt
    split
    · exact ⟨.nothing, Or.inl rfl, fun _ _ => rfl⟩
    · exact transaction_spec body_commits
  simp only [Db.next, Db.call]
  unfold Method.run
  split
  · next denial category db₁ hdenial hraised =>
    rw [hraised] at hattempt
    obtain ⟨-, hlogs, hsame⟩ := hattempt
    have hsame := hsame _ rfl
    -- the second transaction finds the tables as they were before the call
    have hlogs' : Logs env db₁ (transaction draws 1 denial db₁).2 :=
      (transaction_spec fun h => (denial_commits hdenial h).1).2.1
    have hsame' : (transaction draws 1 denial db₁).2.toTables = db₁.toTables := by
      unfold transaction
      split
      · rfl
      · unfold transact
        cases hrun : denial db₁ with
        | error e => rfl
        | ok result => exact (denial_commits hdenial hrun).2
    rw [hsame] at hsame'
    split
    all_goals
      next heq =>
      rw [heq] at hlogs' hsame'
      exact ⟨hsame'.symm ▸ .nothing, hlogs.trans hlogs', fun _ _ => hsame'⟩
  · exact hattempt

end Polymind.Security
