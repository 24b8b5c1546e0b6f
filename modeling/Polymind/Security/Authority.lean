import Polymind.Security.Models
import Polymind.Lib.Transaction
import Polymind.Lib.Table
import Polymind.Lib.Traces
import Mathlib.Algebra.Order.Ring.Rat

/-!
# The security authority

`SecurityAuthority` of `security/authority.py`: its five tables, and its methods as serial
transactions.  A method is a check made before the transaction, the transaction, and, for an
`audited_mutation`, the second transaction that records a denial.

A UUID column holds the UUID, the column of permissions the set whose sorted names it lists, and
the inventory of a purge the list it encodes.  A clock reading is a float, taken as the rational it
denotes.  Arguments are hashable; `revoke` is a boolean.
-/

namespace Polymind.Security

variable {U : Type}

/-! ### Arguments -/

/-- An argument whose type a method tests: a value of that type, or one of the other values. -/
inductive Arg (α : Type) where
  | value (a : α)
  | other (n : Nat)
deriving DecidableEq

/-- An argument that names a row: a `UUID`, another value with the text of one, or neither. -/
inductive IdArg (U : Type) where
  | uuid (u : U)
  | text (u : U)
  | other (n : Nat)
deriving DecidableEq

/-- The UUID whose text is `str(argument)`. -/
def IdArg.key : IdArg U → Option U
  | .uuid u => some u
  | .text u => some u
  | .other _ => none

/-- The argument, if its type is `UUID`. -/
def IdArg.uuid? : IdArg U → Option U
  | .uuid u => some u
  | .text _ => none
  | .other _ => none

/-- The resource of `authorize`. -/
inductive Resource (U : Type) where
  | id (arg : IdArg U)
  | scope (scope : Scope U)
deriving DecidableEq

/-! ### Tables -/

/-- A row of `principals`. -/
structure PrincipalRow (U : Type) where
  owner : U
  tenant : U
  identity : Str
  permissions : Finset Action
  kind : Kind
  epoch : Nat
  disabled : Bool
deriving DecidableEq

inductive DocumentState where
  | active | tombstoned | purgePending
deriving DecidableEq

/-- A row of `documents`. -/
structure DocumentRow (U : Type) where
  document : U
  tenant : U
  owner : U
  epoch : Nat
  state : DocumentState
deriving DecidableEq

/-- A row of `grants`. -/
structure GrantRow (U : Type) where
  grantId : U
  document : U
  grantee : U
  created : ℚ
  revoked : Option ℚ
deriving DecidableEq

inductive Outcome where
  | allowed | denied
deriving DecidableEq

/-- A row of `audit`, the constant version of the policy apart. -/
structure AuditRow (U : Type) where
  eventId : U
  time : ℚ
  principal : Option U
  tenant : Option U
  action : Str
  resource : Option U
  outcome : Outcome

/-- A row of `purge`. -/
structure PurgeRow (U : Type) where
  document : U
  inventory : List Str
  state : Str
  reason : Str
deriving DecidableEq

/-- The tables that decide what is authorized. -/
structure Tables (U : Type) where
  principals : List (PrincipalRow U)
  documents : List (DocumentRow U)
  grants : List (GrantRow U)
  purge : List (PurgeRow U)

/-- The database. -/
structure Db (U : Type) extends Tables U where
  audit : List (AuditRow U)

/-- What a method raises: a `SecurityError`, or the error of `Document.model_validate`. -/
inductive Raised where
  | security (category : Category)
  | validation
deriving DecidableEq

abbrev Raised.denied : Raised := .security .accessDenied

/-- An authority: its configuration, and the functions of the standard library. -/
structure AuthorityEnv (U : Type) extends Ids U where
  auditLimit : Nat
  auditLimit_pos : 0 < auditLimit
  auditLimit_le : auditLimit ≤ 10000000

/-- What a call takes from outside, each in the order of the places that take it: the clock readings of
the expiry checks, those that rows keep, the `uuid4` values, and whether SQLite fails a transaction. -/
structure Draws (U : Type) where
  expiry : Nat → ℚ
  stamp : Nat → ℚ
  uuid : Nat → U
  fails : Nat → Bool

/-- `AuthorizationSnapshot`. -/
structure AuthorizationSnapshot (U : Type) where
  principal : Arg Principal
  principalEpoch : Nat
  documents : List (IdArg U × Scope U × Nat)
  action : Arg Action
  policyVersion : Str

/-- What a method returns. -/
inductive Reply (U : Type) where
  | nothing
  | snapshot (s : AuthorizationSnapshot U)
  | grant (grantId : U)
  | state (s : DocumentState)
  | purge (row : PurgeRow U)

def Action.text : Action → Str
  | .documentRead => "DOCUMENT_READ".toList
  | .documentAnalyze => "DOCUMENT_ANALYZE".toList
  | .documentShare => "DOCUMENT_SHARE".toList
  | .documentDelete => "DOCUMENT_DELETE".toList
  | .jobRead => "JOB_READ".toList
  | .jobCancel => "JOB_CANCEL".toList
  | .sessionRead => "SESSION_READ".toList
  | .sessionWrite => "SESSION_WRITE".toList
  | .publicationManage => "PUBLICATION_MANAGE".toList
  | .usageRead => "USAGE_READ".toList
  | .tenantAdmin => "TENANT_ADMIN".toList

/-- The actions `_document` knows. -/
def Action.onDocument : Action → Bool
  | .documentRead | .documentAnalyze | .documentShare | .documentDelete => true
  | _ => false

/-- The actions a grant is enough for. -/
def Action.granted : Action → Bool
  | .documentRead | .documentAnalyze => true
  | _ => false

/-- `_identity`. -/
def Principal.identity (p : Principal) : Str :=
  Json.dumps true (.arr [.str p.issuer, .str p.tenantIdentity, .str p.subject])

/-- `policyVersion`, as the code writes it. -/
def policyVersion : Str := "authorization/1".toList

variable [DecidableEq U]

namespace Tables

variable (t : Tables U)

def principal? (owner : U) : Option (PrincipalRow U) :=
  Table.lookup PrincipalRow.owner t.principals owner

def document? (key : Option U) : Option (DocumentRow U) :=
  key.bind (Table.lookup DocumentRow.document t.documents)

def grant? (document grantee : U) : Option (GrantRow U) :=
  Table.lookup (fun g : GrantRow U => (g.document, g.grantee)) t.grants (document, grantee)

def purge? (document : U) : Option (PurgeRow U) :=
  Table.lookup PurgeRow.document t.purge document

end Tables

namespace Db

/-- `_audit`. -/
def record (env : AuthorityEnv U) (event : U) (time : ℚ) (principal : Arg Principal) (action : Str)
    (resource : Option U) (outcome : Outcome) (db : Db U) : Except Raised (Db U) :=
  if env.auditLimit ≤ db.audit.length ∨ db.audit.any (fun row => row.eventId = event) = true then
    .error (.security .securityUnavailable)
  else
    let scope := match principal with
      | .value p => some (p.scope env.toIds)
      | .other _ => none
    .ok { db with
      audit := db.audit ++
        [⟨event, time, scope.map Scope.owner, scope.map Scope.tenant, action, resource, outcome⟩] }

end Db

/-! ### Checks -/

/-- The row is the one of the principal, as it was verified. -/
def PrincipalRow.agrees (env : AuthorityEnv U) (p : Principal) (row : PrincipalRow U) : Bool :=
  !row.disabled && row.tenant == (p.scope env.toIds).tenant && row.identity == p.identity
    && row.permissions == p.permissions && row.kind == p.kind

/-- `_principal`; it returns the principal as well, whose type it has tested. -/
def checkPrincipal (env : AuthorityEnv U) (now : ℚ) (principal : Arg Principal) (t : Tables U) :
    Except Raised (Principal × PrincipalRow U) :=
  match principal with
  | .other _ => .error (.security .authenticationRequired)
  | .value p =>
    if p.expires ≤ now then .error (.security .authenticationRequired)
    else match (t.principal? (p.scope env.toIds).owner).filter (PrincipalRow.agrees env p) with
      | none => .error .denied
      | some row => .ok (p, row)

/-- A principal that neither owns the document nor administers its tenant needs a grant, which is enough
for some actions. -/
def needsGrant (env : AuthorityEnv U) (p : Principal) (row : DocumentRow U) : Bool :=
  row.owner != (p.scope env.toIds).owner && decide (.tenantAdmin ∉ p.permissions)

/-- `_document`. -/
def checkDocument (env : AuthorityEnv U) (now : ℚ) (principal : Arg Principal) (action : Arg Action)
    (documentId : IdArg U) (t : Tables U) : Except Raised (Principal × DocumentRow U) :=
  match checkPrincipal env now principal t with
  | .error e => .error e
  | .ok (p, _) =>
    match action, documentId with
    | .value action, .uuid document =>
      let scope := p.scope env.toIds
      match (t.document? (some document)).filter
          (fun row => row.tenant = scope.tenant ∧ row.state = .active) with
      | none => .error .denied
      | some row =>
        if ¬action.onDocument then .error .denied
        else if needsGrant env p row = true ∧ (action.granted = false ∨
            ((t.grant? document scope.owner).filter fun g => g.revoked.isNone).isNone) then
          .error .denied
        else .ok (p, row)
    | _, _ => .error .denied

/-- The checks of `authorize`. -/
def checkAction (env : AuthorityEnv U) (expiry : Nat → ℚ) (principal : Arg Principal)
    (action : Arg Action) (resource : Resource U) (t : Tables U) : Except Raised Unit :=
  match checkPrincipal env (expiry 0) principal t with
  | .error e => .error e
  | .ok (p, _) =>
    match action with
    | .other _ => .error .denied
    | .value a =>
      match a with
      | .publicationManage | .tenantAdmin =>
        if a ∈ p.permissions then .ok () else .error .denied
      | .sessionRead | .sessionWrite | .usageRead =>
        if resource = .scope (p.scope env.toIds) then .ok () else .error .denied
      | _ =>
        match resource with
        | .id document => (checkDocument env (expiry 1) principal action document t).map fun _ => ()
        | .scope _ => .error .denied

/-- The documents of a snapshot, from its reading of the clock on. -/
def snapshotDocuments (env : AuthorityEnv U) (expiry : Nat → ℚ) (principal : Arg Principal)
    (action : Arg Action) (t : Tables U) :
    Nat → List (IdArg U) → Except Raised (List (IdArg U × Scope U × Nat))
  | _, [] => .ok []
  | i, d :: ds =>
    match checkDocument env (expiry i) principal action d t with
    | .error e => .error e
    | .ok (_, row) => (snapshotDocuments env expiry principal action t (i + 1) ds).map
      ((d, ⟨row.tenant, row.owner⟩, row.epoch) :: ·)

/-- The snapshot that `snapshot` builds. -/
def takeSnapshot (env : AuthorityEnv U) (expiry : Nat → ℚ) (principal : Arg Principal)
    (documentIds : List (IdArg U)) (action : Arg Action) (t : Tables U) :
    Except Raised (AuthorizationSnapshot U) :=
  match checkPrincipal env (expiry 0) principal t with
  | .error e => .error e
  | .ok (_, row) => (snapshotDocuments env expiry principal action t 1 documentIds).map fun docs =>
    ⟨principal, row.epoch, docs, action, policyVersion⟩

/-- The loop of `_revalidate`. -/
def revalidateDocuments (env : AuthorityEnv U) (expiry : Nat → ℚ) (s : AuthorizationSnapshot U)
    (t : Tables U) : Nat → List (IdArg U × Scope U × Nat) → Except Raised Unit
  | _, [] => .ok ()
  | i, (d, scope, epoch) :: docs =>
    match checkDocument env (expiry i) s.principal s.action d t with
    | .error e => .error e
    | .ok (_, row) =>
      if row.epoch ≠ epoch ∨ scope ≠ ⟨row.tenant, row.owner⟩ then .error .denied
      else revalidateDocuments env expiry s t (i + 1) docs

/-- `_revalidate`. -/
def checkSnapshot (env : AuthorityEnv U) (expiry : Nat → ℚ) (snapshot : Arg (AuthorizationSnapshot U))
    (t : Tables U) : Except Raised Unit :=
  match snapshot with
  | .other _ => .error .denied
  | .value s =>
    if s.policyVersion ≠ policyVersion then .error .denied
    else match checkPrincipal env (expiry 0) s.principal t with
      | .error e => .error e
      | .ok (_, row) =>
        if row.epoch ≠ s.principalEpoch then .error .denied
        else revalidateDocuments env expiry s t 1 s.documents

/-! ### Methods -/

/-- A transaction: it raises, or commits a state with an answer, which may be a denial that is raised
after the commit. -/
abbrev Body (U : Type) := Db U → Except Raised (Except Raised (Reply U) × Db U)

/-- A method: what it raises before its transaction, the transaction, and the transaction that records a
denial. -/
structure Method (U : Type) where
  check : Except Raised Unit
  body : Body U
  denial : Option (Body U)

/-- `with self.transaction() as db`, the `k`-th of the call. -/
def transaction (draws : Draws U) (k : Nat) (body : Body U) (db : Db U) :
    Except Raised (Reply U) × Db U :=
  if draws.fails k then (.error (.security .securityUnavailable), db)
  else match transact body db with
    | (.ok answer, db) => (answer, db)
    | (.error e, db) => (.error e, db)

/-- The method that a decorator wraps. -/
def Method.attempt (draws : Draws U) (m : Method U) (db : Db U) : Except Raised (Reply U) × Db U :=
  match m.check with
  | .error e => (.error e, db)
  | .ok () => transaction draws 0 m.body db

/-- A call of the method. -/
def Method.run (draws : Draws U) (m : Method U) (db : Db U) : Except Raised (Reply U) × Db U :=
  match m.denial, m.attempt draws db with
  | some denial, (.error (.security category), db) =>
    match transaction draws 1 denial db with
    | (.ok _, db) => (.error (.security category), db)
    | (.error e, db) => (.error e, db)
  | _, answer => answer

section Methods

variable (env : AuthorityEnv U) (draws : Draws U)

/-- `audited_mutation`. -/
def auditedMutation (action : String) (principal : Arg Principal) (resource : Option U)
    (check : Except Raised Unit) (body : Body U) : Method U where
  check
  body
  denial := some fun db =>
    (db.record env (draws.uuid 2) (draws.stamp 4) principal action.toList resource .denied).map
      fun db => (.ok .nothing, db)

/-- The last audit row of a transaction, and its answer. -/
def Db.close (principal : Arg Principal) (action : String) (resource : Option U) (reply : Reply U)
    (db : Db U) : Except Raised (Except Raised (Reply U) × Db U) :=
  (db.record env (draws.uuid 0) (draws.stamp 2) principal action.toList resource .allowed).map
    fun db => (.ok reply, db)

/-- `audit_authentication`. -/
def auditAuthentication (accepted : Bool) : Method U where
  check := .ok ()
  body := fun db =>
    (db.record env (draws.uuid 0) (draws.stamp 2) (.other 0) "AUTHENTICATION".toList none
      (if accepted then .allowed else .denied)).map fun db => (.ok .nothing, db)
  denial := none

/-- `register`, of a principal. -/
def registerBody (p : Principal) : Body U := fun db =>
  let scope := p.scope env.toIds
  match db.principal? scope.owner with
  | some row =>
    if row.identity ≠ p.identity ∨ row.tenant ≠ scope.tenant ∨ row.disabled = true then .error .denied
    else if row.permissions ≠ p.permissions ∨ row.kind ≠ p.kind then
      Db.close env draws (.value p) "AUTHENTICATION" none .nothing { db with
        principals := Table.update (fun r => r.owner = scope.owner)
          (fun r => { r with permissions := p.permissions, kind := p.kind, epoch := r.epoch + 1 })
          db.principals }
    else Db.close env draws (.value p) "AUTHENTICATION" none .nothing db
  | none =>
    Db.close env draws (.value p) "AUTHENTICATION" none .nothing { db with
      principals := db.principals ++
        [⟨scope.owner, scope.tenant, p.identity, p.permissions, p.kind, 0, false⟩] }

/-- `register`. -/
def register (principal : Arg Principal) : Method U where
  check := match principal with
    | .other _ => .error (.security .authenticationRequired)
    | .value p =>
      if p.expires ≤ draws.expiry 0 then .error (.security .authenticationRequired) else .ok ()
  body := match principal with
    | .other _ => fun _ => .error (.security .authenticationRequired)
    | .value p => registerBody env draws p
  denial := none

/-- `register_document`, of a document by its id and scope. -/
def registerDocumentBody (operator : Arg Principal) (document : U) (scope : Scope U) : Body U :=
  fun db =>
    match checkPrincipal env (draws.expiry 0) operator db.toTables with
    | .error e => .error e
    | .ok (p, _) =>
      if .publicationManage ∉ p.permissions ∨ scope.tenant ≠ (p.scope env.toIds).tenant then
        .error .denied
      else match (db.principal? scope.owner).filter (fun row => row.tenant = scope.tenant) with
        | none => .error .denied
        | some _ =>
          match db.document? (some document) with
          | some row =>
            if row.owner ≠ scope.owner ∨ row.tenant ≠ scope.tenant ∨ row.state ≠ .active then
              .error .denied
            else .ok (.ok .nothing, db)
          | none =>
            Db.close env draws operator "DOCUMENT_REGISTER" (some document) .nothing { db with
              documents := db.documents ++ [⟨document, scope.tenant, scope.owner, 0, .active⟩] }

/-- `register_document`; `none` is an argument that `model_validate` refuses. -/
def registerDocument (operator : Arg Principal) (document : Option (U × Scope U)) : Method U :=
  auditedMutation env draws "DOCUMENT_REGISTER" operator none
    (match document with
      | none => .error .validation
      | some _ => .ok ())
    (match document with
      | none => fun _ => .error .validation
      | some (document, scope) => registerDocumentBody env draws operator document scope)

/-- The text of an action in a row of `audit`. -/
def actionText : Arg Action → Str
  | .value a => a.text
  | .other _ => "UNKNOWN".toList

/-- `authorize`. -/
def authorize (principal : Arg Principal) (action : Arg Action) (resource : Resource U) : Method U where
  check := .ok ()
  body := fun db =>
    let decision := checkAction env draws.expiry principal action resource db.toTables
    let resource := match resource with
      | .id arg => arg.uuid?
      | .scope _ => none
    (db.record env (draws.uuid 0) (draws.stamp 2) principal (actionText action) resource
      (if decision.isOk then .allowed else .denied)).map fun db =>
        (if decision.isOk then .ok .nothing else .error .denied, db)
  denial := none

/-- `snapshot`; `none` is an argument that is no tuple. -/
def snapshot (principal : Arg Principal) (documentIds : Option (List (IdArg U))) (action : Arg Action) :
    Method U where
  check := match documentIds with
    | none => .error .denied
    | some ids => if 32 < ids.length ∨ ¬ids.Nodup then .error .denied else .ok ()
  body := fun db =>
    let decision := takeSnapshot env draws.expiry principal (documentIds.getD []) action db.toTables
    (db.record env (draws.uuid 0) (draws.stamp 2) principal "AUTHORIZE".toList none
      (if decision.isOk then .allowed else .denied)).map fun db =>
        (match decision with
          | .ok s => .ok (.snapshot s)
          | .error _ => .error .denied, db)
  denial := none

/-- `revalidate`: the entry into `release` with nothing to do. -/
def revalidate (s : Arg (AuthorizationSnapshot U)) : Method U where
  check := .ok ()
  body := fun db => (checkSnapshot env draws.expiry s db.toTables).map fun _ => (.ok .nothing, db)
  denial := none

/-- The upsert of `share`. -/
def upsertGrant (row : GrantRow U) (grants : List (GrantRow U)) : Except Raised (List (GrantRow U)) :=
  if grants.any (fun g => (g.document, g.grantee) = (row.document, row.grantee)) then
    .ok (Table.update (fun g => (g.document, g.grantee) = (row.document, row.grantee))
      (fun g => { g with revoked := row.revoked }) grants)
  else if grants.any (fun g => g.grantId = row.grantId) then .error (.security .securityUnavailable)
  else .ok (grants ++ [row])

/-- One more epoch for a document. -/
def bump (document : U) (rows : List (DocumentRow U)) : List (DocumentRow U) :=
  Table.update (fun r => r.document = document) (fun r => { r with epoch := r.epoch + 1 }) rows

/-- What `share` writes for a grant. -/
def writeGrant (principal : Arg Principal) (documentId : IdArg U) (document grantee grantId : U)
    (revoke : Bool) (db : Db U) : Except Raised (Except Raised (Reply U) × Db U) :=
  match upsertGrant ⟨grantId, document, grantee, draws.stamp 0,
      if revoke then some (draws.stamp 1) else none⟩ db.grants with
  | .error e => .error e
  | .ok grants =>
    Db.close env draws principal (if revoke then "SHARE_REVOKE" else "SHARE_CREATE")
      documentId.uuid? (.grant grantId) { db with grants, documents := bump document db.documents }

/-- `share`, with a grantee. -/
def shareBody (principal : Arg Principal) (documentId : IdArg U) (grantee : U) (revoke : Bool) :
    Body U := fun db =>
  match checkDocument env (draws.expiry 0) principal (.value .documentShare) documentId db.toTables with
  | .error e => .error e
  | .ok (p, doc) =>
    match (db.principal? grantee).filter
        (fun row => row.tenant = (p.scope env.toIds).tenant ∧ row.disabled = false) with
    | none => .error .denied
    | some _ =>
      match db.grant? doc.document grantee with
      | some g =>
        if g.revoked.isSome = revoke then .ok (.ok (.grant g.grantId), db)
        else writeGrant env draws principal documentId doc.document grantee g.grantId revoke db
      | none =>
        if revoke then .error .denied
        else writeGrant env draws principal documentId doc.document grantee (draws.uuid 3) revoke db

/-- `share`. -/
def share (principal : Arg Principal) (documentId grantee : IdArg U) (revoke : Bool) : Method U :=
  auditedMutation env draws "SHARE_MUTATION" principal documentId.uuid?
    (match grantee with
      | .uuid _ => .ok ()
      | _ => .error .denied)
    (match grantee with
      | .uuid grantee => shareBody env draws principal documentId grantee revoke
      | _ => fun _ => .error .denied)

/-- `tombstone`. -/
def tombstoneBody (principal : Arg Principal) (documentId : IdArg U) : Body U := fun db =>
  match checkPrincipal env (draws.expiry 0) principal db.toTables with
  | .error e => .error e
  | .ok (p, _) =>
    match (db.document? documentId.key).filter (fun row => row.tenant = (p.scope env.toIds).tenant) with
    | none => .error .denied
    | some row =>
      if needsGrant env p row then .error .denied
      else if row.state ≠ .active then .ok (.ok (.state row.state), db)
      else
        match db.record env (draws.uuid 1) (draws.stamp 3) principal "DELETE_REQUESTED".toList
            documentId.uuid? .allowed with
        | .error e => .error e
        | .ok db =>
          Db.close env draws principal "TOMBSTONED" documentId.uuid? (.state .tombstoned) { db with
            documents := Table.update (fun r => r.document = row.document)
              (fun r => { r with state := .tombstoned, epoch := r.epoch + 1 }) db.documents
            grants := Table.update (fun g => g.document = row.document)
              (fun g => { g with revoked := g.revoked.or (some (draws.stamp 0)) }) db.grants }

def tombstone (principal : Arg Principal) (documentId : IdArg U) : Method U :=
  auditedMutation env draws "TOMBSTONED" principal documentId.uuid? (.ok ())
    (tombstoneBody env draws principal documentId)

/-- The row that `track_purge` inserts. -/
def purgeRow (document : U) : PurgeRow U where
  document
  inventory := ["canonical_source", "extraction", "digestion_checkpoints",
    "retained_publication_manifests", "retained_vectors", "temporary_objects",
    "conversation_references"].map String.toList
  state := "PURGE_PENDING".toList
  reason := "complete_reference_inventory_and_delete_adapters_required".toList

/-- `track_purge`. -/
def trackPurgeBody (operator : Arg Principal) (documentId : IdArg U) : Body U := fun db =>
  match checkPrincipal env (draws.expiry 0) operator db.toTables with
  | .error e => .error e
  | .ok (p, _) =>
    match (db.document? documentId.key).filter
        (fun row => row.tenant = (p.scope env.toIds).tenant ∧ row.state ≠ .active) with
    | none => .error .denied
    | some row =>
      if .publicationManage ∉ p.permissions then .error .denied
      else
        let found := db.purge? row.document
        Db.close env draws operator "PURGE_PENDING" documentId.uuid?
          (.purge (found.getD (purgeRow row.document))) { db with
            purge := if found.isSome then db.purge else db.purge ++ [purgeRow row.document]
            documents := Table.update (fun r => r.document = row.document)
              (fun r => { r with state := .purgePending }) db.documents }

def trackPurge (operator : Arg Principal) (documentId : IdArg U) : Method U :=
  auditedMutation env draws "PURGE_PENDING" operator documentId.uuid? (.ok ())
    (trackPurgeBody env draws operator documentId)

/-- `disable_principal`. -/
def disablePrincipalBody (operator : Arg Principal) (owner : IdArg U) : Body U := fun db =>
  match checkPrincipal env (draws.expiry 0) operator db.toTables with
  | .error e => .error e
  | .ok (p, _) =>
    match owner with
    | .uuid u =>
      match (db.principal? u).filter (fun row => row.tenant = (p.scope env.toIds).tenant) with
      | none => .error .denied
      | some _ =>
        if .tenantAdmin ∉ p.permissions then .error .denied
        else
          Db.close env draws operator "PRINCIPAL_DISABLE" (some u) .nothing { db with
            principals := Table.update (fun r => r.owner = u ∧ r.disabled = false)
              (fun r => { r with disabled := true, epoch := r.epoch + 1 }) db.principals }
    | _ => .error .denied

def disablePrincipal (operator : Arg Principal) (owner : IdArg U) : Method U :=
  auditedMutation env draws "PRINCIPAL_DISABLE" operator owner.uuid? (.ok ())
    (disablePrincipalBody env draws operator owner)

end Methods

/-! ### Calls -/

/-- A call of the authority, with its arguments. -/
inductive Call (U : Type) where
  | auditAuthentication (accepted : Bool)
  | register (principal : Arg Principal)
  | registerDocument (operator : Arg Principal) (document : Option (U × Scope U))
  | authorize (principal : Arg Principal) (action : Arg Action) (resource : Resource U)
  | snapshot (principal : Arg Principal) (documentIds : Option (List (IdArg U))) (action : Arg Action)
  | revalidate (s : Arg (AuthorizationSnapshot U))
  | share (principal : Arg Principal) (documentId grantee : IdArg U) (revoke : Bool)
  | tombstone (principal : Arg Principal) (documentId : IdArg U)
  | trackPurge (operator : Arg Principal) (documentId : IdArg U)
  | disablePrincipal (operator : Arg Principal) (owner : IdArg U)

/-- The method that a call calls. -/
def Call.method (env : AuthorityEnv U) (draws : Draws U) : Call U → Method U
  | .auditAuthentication accepted => Security.auditAuthentication env draws accepted
  | .register principal => Security.register env draws principal
  | .registerDocument operator document => Security.registerDocument env draws operator document
  | .authorize principal action resource => Security.authorize env draws principal action resource
  | .snapshot principal documentIds action => Security.snapshot env draws principal documentIds action
  | .revalidate s => Security.revalidate env draws s
  | .share principal documentId grantee revoke =>
    Security.share env draws principal documentId grantee revoke
  | .tombstone principal documentId => Security.tombstone env draws principal documentId
  | .trackPurge operator documentId => Security.trackPurge env draws operator documentId
  | .disablePrincipal operator owner => Security.disablePrincipal env draws operator owner

/-- A call, with what it takes from outside. -/
def Db.call (env : AuthorityEnv U) (db : Db U) (event : Call U × Draws U) :
    Except Raised (Reply U) × Db U :=
  (event.1.method env event.2).run event.2 db

/-- The state after a call. -/
def Db.next (env : AuthorityEnv U) (db : Db U) (event : Call U × Draws U) : Db U :=
  (db.call env event).2

/-- The state after any sequence of calls. -/
def Db.run (env : AuthorityEnv U) (db : Db U) (events : List (Call U × Draws U)) : Db U :=
  Traces.exec (Db.next env) db events

/-- The database that `__init__` creates. -/
def Db.empty : Db U := ⟨⟨[], [], [], []⟩, []⟩

end Polymind.Security
