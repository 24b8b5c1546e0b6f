import Polymind.Security.Equiv.Tenants
import Polymind.Documents.Equiv.Assumptions

/-!
# Tenants do not interfere

Two states with the rows of a tenant in common, and a call of a principal of that tenant.  Its
transactions end alike in both states (`Alike`, one lemma a body): they raise the same, or commit states
that still have the rows of the tenant in common and leave the other rows alone (`After`).
-/

namespace Polymind.Security

variable {U : Type} [DecidableEq U] {env : AuthorityEnv U} {T a b : U} {db₁ db₂ : Db U}

/-! ### What two runs leave -/

/-- An audit row, its id apart. -/
def AuditRow.facts (row : AuditRow U) : ℚ × Option U × Option U × Str × Option U × Outcome :=
  (row.time, row.principal, row.tenant, row.action, row.resource, row.outcome)

/-- The reply with the other of two ids of grants. -/
def Reply.swap (a b : U) : Reply U → Reply U
  | .grant grantId => .grant (Equiv.swap a b grantId)
  | reply => reply

/-- Two runs, from `db₁` to `db₁'` and from `db₂` to `db₂'`: the rows of the tenant are again the same, up
to swapping two ids of grants, the rows of other tenants are as they were, and the same audit rows of the
tenant were inserted, up to their ids. -/
structure After (a b T : U) (db₁ db₂ db₁' db₂' : Db U) : Prop where
  agree : Agree a b T db₁'.toTables db₂'.toTables
  untouched₁ : Untouched T db₁.toTables db₁'.toTables
  untouched₂ : Untouched T db₂.toTables db₂'.toTables
  audit : ∃ rows₁ rows₂, db₁'.audit = db₁.audit ++ rows₁ ∧ db₂'.audit = db₂.audit ++ rows₂ ∧
    rows₁.map AuditRow.facts = rows₂.map AuditRow.facts ∧ ∀ row ∈ rows₁, row.tenant = some T

theorem After.refl (h : Agree a b T db₁.toTables db₂.toTables) : After a b T db₁ db₂ db₁ db₂ where
  agree := h
  untouched₁ := .refl _
  untouched₂ := .refl _
  audit := ⟨[], [], (List.append_nil _).symm, (List.append_nil _).symm, rfl, by simp⟩

/-- Two transactions on the two states end alike. -/
inductive Alike (a b T : U) (db₁ db₂ : Db U) :
    Except Raised (Except Raised (Reply U) × Db U) → Except Raised (Except Raised (Reply U) × Db U) → Prop
  | raises (e : Raised) : Alike a b T db₁ db₂ (.error e) (.error e)
  | commits (reply : Reply U) (db₁' db₂' : Db U) (h : After a b T db₁ db₂ db₁' db₂') :
      Alike a b T db₁ db₂ (.ok (.ok reply, db₁')) (.ok (.ok (reply.swap a b), db₂'))

/-! ### Hypotheses -/

/-- The values are in no row yet, and differ. -/
structure Draws.Fresh (draws : Draws U) (db : Db U) : Prop where
  grants : ∀ k, ∀ g ∈ db.grants, g.grantId ≠ draws.uuid k
  audit : ∀ k, ∀ row ∈ db.audit, row.eventId ≠ draws.uuid k
  distinct : Function.Injective draws.uuid

/-- The same draws, with other values of `uuid4`. -/
abbrev Draws.redrawn (draws : Draws U) (uuid : Nat → U) : Draws U := { draws with uuid }

/-- Two states, keyed as the schema says, with the rows of a tenant in common, room for audit rows, and
fresh values of `uuid4` for each. -/
structure Twin (env : AuthorityEnv U) (T : U) (draws : Draws U) (uuid : Nat → U) (rows : Nat)
    (db₁ db₂ : Db U) : Prop where
  keyed₁ : Keyed db₁.toTables
  keyed₂ : Keyed db₂.toTables
  common : Common T db₁.toTables db₂.toTables
  room₁ : db₁.audit.length + rows ≤ env.auditLimit
  room₂ : db₂.audit.length + rows ≤ env.auditLimit
  fresh₁ : draws.Fresh db₁
  fresh₂ : (draws.redrawn uuid).Fresh db₂

/-- The audit rows that a call may insert. -/
def Call.auditRows : Call U → Nat
  | .tombstone _ _ => 2
  | .revalidate _ => 0
  | _ => 1

/-- The call is one that the principal makes, and no registration. -/
def Call.By (p : Principal) : Call U → Prop
  | .authorize principal _ _ => principal = .value p
  | .snapshot principal _ _ => principal = .value p
  | .revalidate (.value s) => s.principal = .value p
  | .revalidate (.other _) => True
  | .share principal _ _ _ => principal = .value p
  | .tombstone principal _ => principal = .value p
  | .trackPurge operator _ => operator = .value p
  | .disablePrincipal operator _ => operator = .value p
  | _ => False

/-! ### Audit rows -/

section Records

variable {draws : Draws U} {p : Principal}

/-- The row that `_audit` inserts for a principal. -/
def auditRow (env : AuthorityEnv U) (p : Principal) (event : U) (time : ℚ) (action : Str)
    (resource : Option U) (outcome : Outcome) : AuditRow U :=
  ⟨event, time, some (p.scope env.toIds).owner, some (p.scope env.toIds).tenant, action, resource,
    outcome⟩

theorem record_ok {db : Db U} {event : U} {time : ℚ} {action : Str} {resource : Option U}
    {outcome : Outcome} (hroom : db.audit.length < env.auditLimit)
    (hfresh : ∀ row ∈ db.audit, row.eventId ≠ event) :
    db.record env event time (.value p) action resource outcome
      = .ok { db with audit := db.audit ++ [auditRow env p event time action resource outcome] } := by
  unfold Db.record
  rw [if_neg]
  · rfl
  · rintro (hfull | htaken)
    · exact absurd hroom (not_lt.mpr hfull)
    · obtain ⟨row, hrow, hid⟩ := List.any_eq_true.mp htaken
      exact hfresh row hrow (of_decide_eq_true hid)

theorem After.record {db₁' db₂' : Db U} (h : After a b T db₁ db₂ db₁' db₂')
    (htenant : (p.scope env.toIds).tenant = T) (e₁ e₂ : U) (time : ℚ) (action : Str)
    (resource : Option U) (outcome : Outcome) :
    After a b T db₁ db₂
      { db₁' with audit := db₁'.audit ++ [auditRow env p e₁ time action resource outcome] }
      { db₂' with audit := db₂'.audit ++ [auditRow env p e₂ time action resource outcome] } := by
  obtain ⟨rows₁, rows₂, h₁, h₂, hfacts, hof⟩ := h.audit
  refine ⟨h.agree, h.untouched₁, h.untouched₂,
    rows₁ ++ [auditRow env p e₁ time action resource outcome],
    rows₂ ++ [auditRow env p e₂ time action resource outcome], ?_, ?_, ?_, ?_⟩
  · rw [h₁, List.append_assoc]
  · rw [h₂, List.append_assoc]
  · rw [List.map_append, List.map_append, hfacts]
    rfl
  · intro row hrow
    rcases List.mem_append.mp hrow with hrow | hrow
    · exact hof row hrow
    · obtain rfl := List.mem_singleton.mp hrow
      exact congrArg some htenant

/-- Two transactions that end with the same audit row. -/
theorem close_alike {db₁' db₂' : Db U} {uuid : Nat → U} (h : After a b T db₁ db₂ db₁' db₂')
    (htenant : (p.scope env.toIds).tenant = T) {action : String} {resource : Option U} {reply : Reply U}
    (hroom₁ : db₁'.audit.length < env.auditLimit) (hroom₂ : db₂'.audit.length < env.auditLimit)
    (hfresh₁ : ∀ row ∈ db₁'.audit, row.eventId ≠ draws.uuid 0)
    (hfresh₂ : ∀ row ∈ db₂'.audit, row.eventId ≠ uuid 0) :
    Alike a b T db₁ db₂ (Db.close env draws (.value p) action resource reply db₁')
      (Db.close env (draws.redrawn uuid) (.value p) action resource (reply.swap a b) db₂') := by
  unfold Db.close
  rw [record_ok hroom₁ hfresh₁, record_ok hroom₂ hfresh₂]
  exact .commits reply _ _ (h.record htenant _ _ _ _ _ _)

end Records

/-! ### Bodies -/

section Bodies

variable {draws : Draws U} {uuid : Nat → U} {p : Principal} {rows : Nat}

theorem Twin.agree (h : Twin env T draws uuid rows db₁ db₂) :
    Agree (draws.uuid 3) (uuid 3) T db₁.toTables db₂.toTables :=
  h.common.agree (h.fresh₁.grants 3) (h.fresh₂.grants 3)

/-- A document that a check found for a principal of the tenant. -/
theorem documentOf_found {t : Tables U} {key : Option U} {q : DocumentRow U → Bool} {doc : DocumentRow U}
    (h : (t.document? key).filter q = some doc) (hq : ∀ d, q d = true → d.tenant = T) :
    t.DocumentOf doc.document T := by
  obtain ⟨hrow, hfits⟩ := Option.filter_eq_some_iff.mp h
  exact ⟨doc, (Tables.document?_mem hrow).1, rfl, hq doc hfits⟩

theorem upsertGrant_known {row : GrantRow U} {grants : List (GrantRow U)}
    (h : ∃ g ∈ grants, (g.document, g.grantee) = (row.document, row.grantee)) :
    upsertGrant row grants = .ok (regranted row.document row.grantee row.revoked grants) := by
  obtain ⟨g, hg, hkey⟩ := h
  unfold upsertGrant
  rw [if_pos (List.any_eq_true.mpr ⟨g, hg, decide_eq_true hkey⟩)]
  rfl

theorem upsertGrant_new {row : GrantRow U} {grants : List (GrantRow U)}
    (hnew : ∀ g ∈ grants, (g.document, g.grantee) ≠ (row.document, row.grantee))
    (hid : ∀ g ∈ grants, g.grantId ≠ row.grantId) : upsertGrant row grants = .ok (grants ++ [row]) := by
  unfold upsertGrant
  rw [if_neg, if_neg]
  · intro hany
    obtain ⟨g, hg, hkey⟩ := List.any_eq_true.mp hany
    exact hid g hg (of_decide_eq_true hkey)
  · intro hany
    obtain ⟨g, hg, hkey⟩ := List.any_eq_true.mp hany
    exact hnew g hg (of_decide_eq_true hkey)

omit [DecidableEq U] in
/-- A row of a document is the one that was found. -/
theorem tenant_of_documentOf {t : Tables U} (hk : Keyed t) {document : U}
    (h : t.DocumentOf document T) : ∀ d ∈ t.documents, d.document = document → d.tenant = T := by
  obtain ⟨found, hfound, hid, htenant⟩ := h
  intro d hd hdid
  rw [Table.eq_of_key hk.documents hd hfound (hdid.trans hid.symm)]
  exact htenant

/-- The tables after the row of a document of the tenant was updated, with grants and purges that agree. -/
theorem after_document (hk₁ : Keyed db₁.toTables) (hk₂ : Keyed db₂.toTables)
    (hagree : Agree a b T db₁.toTables db₂.toTables) {document : U} (hof : db₁.DocumentOf document T)
    (set : DocumentRow U → DocumentRow U)
    (hset : ∀ d, (set d).document = d.document ∧ (set d).tenant = d.tenant)
    {grants₁ grants₂ : List (GrantRow U)} {purge₁ purge₂ : List (PurgeRow U)}
    (hgrants : ∀ g : GrantRow U, db₁.DocumentOf g.document T → (g ∈ grants₁ ↔ g.swap a b ∈ grants₂))
    (hkept₁ : ∀ g : GrantRow U, ¬db₁.DocumentOf g.document T → (g ∈ grants₁ ↔ g ∈ db₁.grants))
    (hkept₂ : ∀ g : GrantRow U, ¬db₂.DocumentOf g.document T → (g ∈ grants₂ ↔ g ∈ db₂.grants))
    (hpurge : ∀ r : PurgeRow U, db₁.DocumentOf r.document T → (r ∈ purge₁ ↔ r ∈ purge₂))
    (hleft₁ : ∀ r : PurgeRow U, ¬db₁.DocumentOf r.document T → (r ∈ purge₁ ↔ r ∈ db₁.purge))
    (hleft₂ : ∀ r : PurgeRow U, ¬db₂.DocumentOf r.document T → (r ∈ purge₂ ↔ r ∈ db₂.purge)) :
    After a b T db₁ db₂
      { db₁ with
        documents := Table.update (fun d => d.document = document) set db₁.documents
        grants := grants₁
        purge := purge₁ }
      { db₂ with
        documents := Table.update (fun d => d.document = document) set db₂.documents
        grants := grants₂
        purge := purge₂ } := by
  have hrow₁ := tenant_of_documentOf hk₁ hof
  have hrow₂ := tenant_of_documentOf hk₂ (hagree.documentOf.mp hof)
  constructor
  · exact hagree.update hset hgrants hpurge
  · exact .update (fun d hd hc => hrow₁ d hd (of_decide_eq_true hc)) hset hkept₁ hleft₁
  · exact .update (fun d hd hc => hrow₂ d hd (of_decide_eq_true hc)) hset hkept₂ hleft₂
  · exact ⟨[], [], (List.append_nil _).symm, (List.append_nil _).symm, rfl, by simp⟩

/-- The tables after grants of a document of the tenant were updated, and its row. -/
theorem after_update (hk₁ : Keyed db₁.toTables) (hk₂ : Keyed db₂.toTables)
    (hagree : Agree a b T db₁.toTables db₂.toTables) {document : U} (hof : db₁.DocumentOf document T)
    (cond : GrantRow U → Bool) (setG : GrantRow U → GrantRow U) (setD : DocumentRow U → DocumentRow U)
    (hcond : ∀ g, cond g = true → g.document = document) (hswap : ∀ g, cond (g.swap a b) = cond g)
    (hsetG : ∀ g, setG (g.swap a b) = (setG g).swap a b ∧ (setG g).document = g.document)
    (hsetD : ∀ d, (setD d).document = d.document ∧ (setD d).tenant = d.tenant) :
    After a b T db₁ db₂
      { db₁ with
        documents := Table.update (fun d => d.document = document) setD db₁.documents
        grants := Table.update cond setG db₁.grants }
      { db₂ with
        documents := Table.update (fun d => d.document = document) setD db₂.documents
        grants := Table.update cond setG db₂.grants } := by
  have hof' := hagree.documentOf.mp hof
  refine after_document hk₁ hk₂ hagree hof setD hsetD ?_ ?_ ?_ hagree.purge (fun _ _ => Iff.rfl)
    fun _ _ => Iff.rfl
  · exact fun g hg => mem_grants_iff hagree hswap hsetG hg
  · exact fun g hg => mem_grants_of_not hof hcond (fun g => (hsetG g).2) hg
  · exact fun g hg => mem_grants_of_not hof' hcond (fun g => (hsetG g).2) hg

omit [DecidableEq U] in
/-- The ids of the next row are fresh after a row was inserted. -/
theorem fresh_append {draws : Draws U} {db : Db U} (h : draws.Fresh db) {j k : Nat} (hjk : j ≠ k)
    {time : ℚ} {action : Str} {resource : Option U} {outcome : Outcome} :
    ∀ row ∈ db.audit ++ [auditRow env p (draws.uuid j) time action resource outcome],
      row.eventId ≠ draws.uuid k := by
  intro row hrow
  rcases List.mem_append.mp hrow with hrow | hrow
  · exact h.audit k row hrow
  · obtain rfl := List.mem_singleton.mp hrow
    exact fun heq => hjk (h.distinct heq)

theorem tombstone_alike (h : Twin env T draws uuid 2 db₁ db₂) (htenant : (p.scope env.toIds).tenant = T)
    (d : IdArg U) : Alike (draws.uuid 3) (uuid 3) T db₁ db₂
      (tombstoneBody env draws (.value p) d db₁)
      (tombstoneBody env (draws.redrawn uuid) (.value p) d db₂) := by
  have hagree := h.agree
  unfold tombstoneBody
  rw [← checkPrincipal_agree h.keyed₁ h.keyed₂ hagree htenant]
  cases hp : checkPrincipal env (draws.expiry 0) (.value p) db₁.toTables with
  | error e => exact .raises e
  | ok found =>
    obtain ⟨q, own⟩ := found
    obtain ⟨hq, -⟩ := checkPrincipal_ok hp
    cases hq
    simp only
    rw [← document?_agree h.keyed₁ h.keyed₂ hagree fun d hd => (of_decide_eq_true hd).trans htenant]
    cases hd : (db₁.document? d.key).filter fun row => row.tenant = (p.scope env.toIds).tenant with
    | none => exact .raises _
    | some doc =>
      have hof := documentOf_found hd fun d hd => (of_decide_eq_true hd).trans htenant
      simp only
      split
      · exact .raises _
      · split
        · exact .commits (.state doc.state) _ _ (.refl hagree)
        · -- the request and the tombstone are two rows of the ledger
          have hroom₁ := h.room₁
          have hroom₂ := h.room₂
          rw [record_ok (by omega) (h.fresh₁.audit 1), record_ok (by omega) (h.fresh₂.audit 1)]
          have hafter := after_update h.keyed₁ h.keyed₂ hagree hof (fun g => g.document = doc.document)
            (fun g => { g with revoked := g.revoked.or (some (draws.stamp 0)) })
            (fun r => { r with state := .tombstoned, epoch := r.epoch + 1 })
            (fun g hc => of_decide_eq_true hc) (fun _ => rfl) (fun _ => ⟨rfl, rfl⟩) fun _ => ⟨rfl, rfl⟩
          refine close_alike (hafter.record htenant (draws.uuid 1) (uuid 1) (draws.stamp 3)
            "DELETE_REQUESTED".toList d.uuid? .allowed) htenant ?_ ?_ ?_ ?_
          · rw [List.length_append]
            exact hroom₁
          · rw [List.length_append]
            exact hroom₂
          · exact fresh_append h.fresh₁ (by decide)
          · exact fresh_append h.fresh₂ (by decide)

/-- A grant that is inserted in both states, by the other id in the second. -/
theorem mem_append_swap {t t' : Tables U} (hagree : Agree a b T t t') {g row row' : GrantRow U}
    (hof : t.DocumentOf g.document T) (hrow : row' = row.swap a b) :
    g ∈ t.grants ++ [row] ↔ g.swap a b ∈ t'.grants ++ [row'] := by
  rw [List.mem_append, List.mem_append, List.mem_singleton, List.mem_singleton, hagree.grants g hof, hrow]
  refine or_congr Iff.rfl ⟨fun heq => congrArg _ heq, fun heq => ?_⟩
  rw [← GrantRow.swap_swap a b g, heq, GrantRow.swap_swap]

omit [DecidableEq U] in
theorem mem_append_of_not {t : Tables U} {row g : GrantRow U} (hof : t.DocumentOf row.document T)
    (hg : ¬t.DocumentOf g.document T) : g ∈ t.grants ++ [row] ↔ g ∈ t.grants := by
  rw [List.mem_append, List.mem_singleton]
  refine or_iff_left fun heq => hg ?_
  rw [heq]
  exact hof

/-- A grant is written alike, by the id of the grant there is or by a fresh one. -/
theorem writeGrant_alike (h : Twin env T draws uuid 1 db₁ db₂)
    (htenant : (p.scope env.toIds).tenant = T) {d : IdArg U} {document grantee : U}
    (hof : db₁.DocumentOf document T) {grantId : U} {revoke : Bool}
    (hgrant : (∃ g, db₁.grant? document grantee = some g ∧ grantId = g.grantId) ∨
      db₁.grant? document grantee = none ∧ grantId = draws.uuid 3) :
    Alike (draws.uuid 3) (uuid 3) T db₁ db₂
      (writeGrant env draws (.value p) d document grantee grantId revoke db₁)
      (writeGrant env (draws.redrawn uuid) (.value p) d document grantee
        (Equiv.swap (draws.uuid 3) (uuid 3) grantId) revoke db₂) := by
  have hagree := h.agree
  have hroom₁ := h.room₁
  have hroom₂ := h.room₂
  have hother : db₂.grant? document grantee
      = (db₁.grant? document grantee).map (GrantRow.swap (draws.uuid 3) (uuid 3)) :=
    grant?_agree h.keyed₁ h.keyed₂ hagree hof
  unfold writeGrant
  rcases hgrant with ⟨g, hg, rfl⟩ | ⟨hnone, rfl⟩
  · -- the grant is there in both states
    rw [hg, Option.map_some] at hother
    obtain ⟨hmem, hkey⟩ := Table.lookup_mem hg
    obtain ⟨hmem', hkey'⟩ := Table.lookup_mem hother
    rw [upsertGrant_known ⟨g, hmem, hkey⟩, upsertGrant_known ⟨_, hmem', hkey'⟩]
    refine close_alike (after_update h.keyed₁ h.keyed₂ hagree hof
      (fun g => (g.document, g.grantee) = (document, grantee))
      (fun g => { g with revoked := if revoke then some (draws.stamp 1) else none })
      (fun r => { r with epoch := r.epoch + 1 }) ?_ (fun _ => rfl) (fun _ => ⟨rfl, rfl⟩)
      fun _ => ⟨rfl, rfl⟩) htenant hroom₁ hroom₂ (h.fresh₁.audit 0) (h.fresh₂.audit 0)
    exact fun g hc => congrArg Prod.fst (of_decide_eq_true hc)
  · -- it is inserted in both, with a fresh id in each
    rw [hnone, Option.map_none] at hother
    have hnew₁ : ∀ g ∈ db₁.grants, (g.document, g.grantee) ≠ (document, grantee) :=
      Table.lookup_eq_none.mp hnone
    have hnew₂ : ∀ g ∈ db₂.grants, (g.document, g.grantee) ≠ (document, grantee) :=
      Table.lookup_eq_none.mp hother
    rw [upsertGrant_new hnew₁ (h.fresh₁.grants 3), Equiv.swap_apply_left,
      upsertGrant_new hnew₂ (h.fresh₂.grants 3)]
    have hof' := hagree.documentOf.mp hof
    have hreply : (Reply.grant (uuid 3) : Reply U)
        = (Reply.grant (draws.uuid 3)).swap (draws.uuid 3) (uuid 3) :=
      congrArg Reply.grant (Equiv.swap_apply_left _ _).symm
    simp only
    rw [hreply]
    refine close_alike (after_document h.keyed₁ h.keyed₂ hagree hof
      (fun r => { r with epoch := r.epoch + 1 }) (fun _ => ⟨rfl, rfl⟩) (fun g hg => ?_) (fun g hg => ?_)
      (fun g hg => ?_) hagree.purge (fun _ _ => Iff.rfl) fun _ _ => Iff.rfl) htenant hroom₁ hroom₂
      (h.fresh₁.audit 0) (h.fresh₂.audit 0)
    · refine mem_append_swap hagree hg ?_
      rw [GrantRow.swap, Equiv.swap_apply_left]
    · exact mem_append_of_not hof hg
    · exact mem_append_of_not hof' hg

theorem share_alike (h : Twin env T draws uuid 1 db₁ db₂) (htenant : (p.scope env.toIds).tenant = T)
    (d : IdArg U) (grantee : U) (revoke : Bool) : Alike (draws.uuid 3) (uuid 3) T db₁ db₂
      (shareBody env draws (.value p) d grantee revoke db₁)
      (shareBody env (draws.redrawn uuid) (.value p) d grantee revoke db₂) := by
  have hagree := h.agree
  unfold shareBody
  rw [← checkDocument_agree h.keyed₁ h.keyed₂ hagree htenant]
  cases hd : checkDocument env (draws.expiry 0) (.value p) (.value .documentShare) d db₁.toTables with
  | error e => exact .raises e
  | ok found =>
    obtain ⟨q, doc⟩ := found
    obtain ⟨⟨own, hp⟩, -, -, hdoc, hdtenant, -⟩ := checkDocument_ok hd
    obtain ⟨hq, -⟩ := checkPrincipal_ok hp
    cases hq
    have hof : db₁.DocumentOf doc.document T :=
      ⟨doc, (Tables.document?_mem hdoc).1, rfl, hdtenant.trans htenant⟩
    simp only
    rw [← principal?_agree h.keyed₁ h.keyed₂ hagree fun r hr => (of_decide_eq_true hr).1.trans htenant]
    cases (db₁.principal? grantee).filter fun row =>
        row.tenant = (p.scope env.toIds).tenant ∧ row.disabled = false with
    | none => exact .raises _
    | some row =>
      simp only
      rw [grant?_agree h.keyed₁ h.keyed₂ hagree hof]
      cases hg : db₁.grant? doc.document grantee with
      | none =>
        simp only [Option.map_none]
        split
        · exact .raises _
        · have hid : uuid 3 = Equiv.swap (draws.uuid 3) (uuid 3) (draws.uuid 3) :=
            (Equiv.swap_apply_left _ _).symm
          refine (congrArg (fun grantId => Alike _ _ T db₁ db₂ _ (writeGrant env (draws.redrawn uuid)
            (.value p) d doc.document grantee grantId revoke db₂)) hid).mpr ?_
          exact writeGrant_alike h htenant hof (Or.inr ⟨hg, rfl⟩)
      | some g =>
        simp only [Option.map_some]
        by_cases hr : g.revoked.isSome = revoke
        · rw [if_pos hr, if_pos (show (g.swap _ _).revoked.isSome = revoke from hr)]
          exact .commits (.grant g.grantId) _ _ (.refl hagree)
        · rw [if_neg hr, if_neg (show ¬(g.swap _ _).revoked.isSome = revoke from hr)]
          exact writeGrant_alike h htenant hof (Or.inl ⟨g, hg, rfl⟩)

omit [DecidableEq U] in
theorem mem_purge_of_not {t : Tables U} {document : U} (hof : t.DocumentOf document T) {found : Bool}
    {r : PurgeRow U} (hr : ¬t.DocumentOf r.document T) :
    (r ∈ if found then t.purge else t.purge ++ [purgeRow document]) ↔ r ∈ t.purge := by
  split
  · exact Iff.rfl
  · rw [List.mem_append, List.mem_singleton]
    refine or_iff_left fun heq => hr ?_
    rw [heq]
    exact hof

theorem trackPurge_alike (h : Twin env T draws uuid 1 db₁ db₂)
    (htenant : (p.scope env.toIds).tenant = T) (d : IdArg U) : Alike (draws.uuid 3) (uuid 3) T db₁ db₂
      (trackPurgeBody env draws (.value p) d db₁)
      (trackPurgeBody env (draws.redrawn uuid) (.value p) d db₂) := by
  have hagree := h.agree
  unfold trackPurgeBody
  rw [← checkPrincipal_agree h.keyed₁ h.keyed₂ hagree htenant]
  cases hp : checkPrincipal env (draws.expiry 0) (.value p) db₁.toTables with
  | error e => exact .raises e
  | ok found =>
    obtain ⟨q, own⟩ := found
    obtain ⟨hq, -⟩ := checkPrincipal_ok hp
    cases hq
    simp only
    rw [← document?_agree h.keyed₁ h.keyed₂ hagree fun d hd => (of_decide_eq_true hd).1.trans htenant]
    cases hd : (db₁.document? d.key).filter fun row =>
        row.tenant = (p.scope env.toIds).tenant ∧ row.state ≠ .active with
    | none => exact .raises _
    | some doc =>
      have hof := documentOf_found hd fun d hd => (of_decide_eq_true hd).1.trans htenant
      have hof' := hagree.documentOf.mp hof
      simp only
      split
      · exact .raises _
      · rw [← purge?_agree h.keyed₁ h.keyed₂ hagree hof]
        refine close_alike (after_document h.keyed₁ h.keyed₂ hagree hof
          (fun r => { r with state := .purgePending }) (fun _ => ⟨rfl, rfl⟩) hagree.grants
          (fun _ _ => Iff.rfl) (fun _ _ => Iff.rfl) (fun r hr => ?_) (fun r hr => ?_) fun r hr => ?_)
          htenant h.room₁ h.room₂ (h.fresh₁.audit 0) (h.fresh₂.audit 0)
        · split
          · exact hagree.purge r hr
          · rw [List.mem_append, List.mem_append, hagree.purge r hr]
        · exact mem_purge_of_not hof hr
        · exact mem_purge_of_not hof' hr

theorem Agree.disabled {t t' : Tables U} (h : Agree a b T t t') (u : U) :
    Agree a b T { t with principals := disabled u t.principals }
      { t' with principals := Security.disabled u t'.principals } := by
  refine { h with principals := fun r hr => ?_ }
  have hrow : r ∈ Security.disabled u t.principals ↔ id r ∈ Security.disabled u t'.principals := by
    unfold Security.disabled
    refine Table.mem_update_iff ?_ ?_ ?_ ?_ h.principals hr
    · exact fun _ => rfl
    · exact fun _ => rfl
    · exact fun _ => rfl
    · exact fun _ => Iff.rfl
  exact hrow

theorem untouched_disabled {t : Tables U} {u : U} (h : ∀ r ∈ t.principals, r.owner = u → r.tenant = T) :
    Untouched T t { t with principals := disabled u t.principals } := by
  refine { Untouched.refl t with principals := fun r hr => ?_ }
  refine Table.mem_update_of_not (P := fun r : PrincipalRow U => r.tenant ≠ T) (fun r hr hc => ?_) hr
  have htenant := h r hr (of_decide_eq_true hc).1
  exact ⟨not_not.mpr htenant, not_not.mpr htenant⟩

/-- The tables after a principal of the tenant was disabled. -/
theorem after_disabled (hagree : Agree a b T db₁.toTables db₂.toTables) {u : U}
    (hrow₁ : ∀ r ∈ db₁.principals, r.owner = u → r.tenant = T)
    (hrow₂ : ∀ r ∈ db₂.principals, r.owner = u → r.tenant = T) :
    After a b T db₁ db₂ { db₁ with principals := disabled u db₁.principals }
      { db₂ with principals := disabled u db₂.principals } where
  agree := hagree.disabled u
  untouched₁ := untouched_disabled hrow₁
  untouched₂ := untouched_disabled hrow₂
  audit := ⟨[], [], (List.append_nil _).symm, (List.append_nil _).symm, rfl, by simp⟩

theorem disablePrincipal_alike (h : Twin env T draws uuid 1 db₁ db₂)
    (htenant : (p.scope env.toIds).tenant = T) (owner : IdArg U) :
    Alike (draws.uuid 3) (uuid 3) T db₁ db₂
      (disablePrincipalBody env draws (.value p) owner db₁)
      (disablePrincipalBody env (draws.redrawn uuid) (.value p) owner db₂) := by
  have hagree := h.agree
  unfold disablePrincipalBody
  rw [← checkPrincipal_agree h.keyed₁ h.keyed₂ hagree htenant]
  cases hp : checkPrincipal env (draws.expiry 0) (.value p) db₁.toTables with
  | error e => exact .raises e
  | ok found =>
    obtain ⟨q, own⟩ := found
    obtain ⟨hq, -⟩ := checkPrincipal_ok hp
    cases hq
    cases owner with
    | text u => exact .raises _
    | other n => exact .raises _
    | uuid u =>
      simp only
      have hfound : (db₁.principal? u).filter (fun row => row.tenant = (p.scope env.toIds).tenant)
          = (db₂.principal? u).filter fun row => row.tenant = (p.scope env.toIds).tenant :=
        principal?_agree h.keyed₁ h.keyed₂ hagree fun r hr => (of_decide_eq_true hr).trans htenant
      rw [← hfound]
      cases hr : (db₁.principal? u).filter fun row => row.tenant = (p.scope env.toIds).tenant with
      | none => exact .raises _
      | some row =>
        rw [hr] at hfound
        simp only
        split
        · exact .raises _
        · -- the row with the id is one of the tenant in both states
          have hrow : ∀ {t : Tables U}, Keyed t → (t.principal? u).filter
              (fun row => row.tenant = (p.scope env.toIds).tenant) = some row →
              ∀ r ∈ t.principals, r.owner = u → r.tenant = T := by
            intro t hk hfilter r hmem howner
            obtain ⟨hlookup, hfits⟩ := Option.filter_eq_some_iff.mp hfilter
            obtain ⟨hmem', howner'⟩ := (principal?_eq_some_iff hk).mp hlookup
            rw [Table.eq_of_key hk.principals hmem hmem' (howner.trans howner'.symm)]
            exact (of_decide_eq_true hfits).trans htenant
          exact close_alike (after_disabled hagree (hrow h.keyed₁ hr) (hrow h.keyed₂ hfound.symm))
            htenant h.room₁ h.room₂ (h.fresh₁.audit 0) (h.fresh₂.audit 0)

end Bodies

/-! ### Calls -/

/-- Two calls on the two states: the replies are the same, up to swapping two ids of grants. -/
def SameReply (a b : U) (r₁ r₂ : Except Raised (Reply U)) : Prop := r₂ = r₁.map (Reply.swap a b)

section Calls

variable {draws : Draws U} {uuid : Nat → U} {p : Principal} {rows : Nat}

/-- A transaction whose bodies end alike returns alike, or raises the same and leaves both states. -/
theorem transaction_alike (draws : Draws U) (uuid : Nat → U) (k : Nat) {body₁ body₂ : Body U}
    (h : Alike a b T db₁ db₂ (body₁ db₁) (body₂ db₂)) :
    (∃ reply db₁' db₂', transaction draws k body₁ db₁ = (.ok reply, db₁') ∧
      transaction (draws.redrawn uuid) k body₂ db₂ = (.ok (reply.swap a b), db₂') ∧
      After a b T db₁ db₂ db₁' db₂') ∨
    ∃ e, transaction draws k body₁ db₁ = (.error e, db₁) ∧
      transaction (draws.redrawn uuid) k body₂ db₂ = (.error e, db₂) := by
  unfold transaction
  split
  · exact Or.inr ⟨_, rfl, rfl⟩
  · unfold transact
    generalize hr₁ : body₁ db₁ = r₁ at h
    generalize hr₂ : body₂ db₂ = r₂ at h
    cases h with
    | raises e => exact Or.inr ⟨e, rfl, rfl⟩
    | commits reply db₁' db₂' hafter => exact Or.inl ⟨reply, db₁', db₂', rfl, rfl, hafter⟩

omit [DecidableEq U] in
theorem run_denied {m : Method U} {body : Body U} {db db' : Db U} {category : Category}
    (hdenial : m.denial = some body)
    (hattempt : m.attempt draws db = (.error (.security category), db')) :
    m.run draws db = match transaction draws 1 body db' with
      | (.ok _, db) => (.error (.security category), db)
      | (.error e, db) => (.error e, db) := by
  rcases htransaction : transaction draws 1 body db' with ⟨_ | _, db''⟩ <;>
    simp only [Method.run, hdenial, hattempt, htransaction]

/-- The transaction that records a denial. -/
def denialBody (env : AuthorityEnv U) (draws : Draws U) (action : String) (principal : Arg Principal)
    (resource : Option U) : Body U := fun db =>
  (db.record env (draws.uuid 2) (draws.stamp 4) principal action.toList resource .denied).map
    fun db => (.ok .nothing, db)

theorem denial_alike (h : Twin env T draws uuid rows db₁ db₂) (hrows : 1 ≤ rows)
    (htenant : (p.scope env.toIds).tenant = T) (action : String) (resource : Option U) :
    Alike (draws.uuid 3) (uuid 3) T db₁ db₂ (denialBody env draws action (.value p) resource db₁)
      (denialBody env (draws.redrawn uuid) action (.value p) resource db₂) := by
  have hroom₁ := h.room₁
  have hroom₂ := h.room₂
  unfold denialBody
  rw [record_ok (by omega) (h.fresh₁.audit 2), record_ok (by omega) (h.fresh₂.audit 2)]
  exact .commits .nothing _ _ ((After.refl h.agree).record htenant _ _ _ _ _ _)

/-- A mutation whose bodies end alike; a denial inserts the same row in both states. -/
theorem mutation_alike (h : Twin env T draws uuid rows db₁ db₂) (hrows : 1 ≤ rows)
    (htenant : (p.scope env.toIds).tenant = T) {action : String} {resource : Option U}
    {check : Except Raised Unit} {body₁ body₂ : Body U}
    (halike : check = .ok () → Alike (draws.uuid 3) (uuid 3) T db₁ db₂ (body₁ db₁) (body₂ db₂)) :
    SameReply (draws.uuid 3) (uuid 3)
      ((auditedMutation env draws action (.value p) resource check body₁).run draws db₁).1
      ((auditedMutation env (draws.redrawn uuid) action (.value p) resource check body₂).run
        (draws.redrawn uuid) db₂).1 ∧
    After (draws.uuid 3) (uuid 3) T db₁ db₂
      ((auditedMutation env draws action (.value p) resource check body₁).run draws db₁).2
      ((auditedMutation env (draws.redrawn uuid) action (.value p) resource check body₂).run
        (draws.redrawn uuid) db₂).2 := by
  have hagree := h.agree
  -- the wrapped method: it returns alike, or raises the same and leaves both states
  have hattempt : (∃ reply db₁' db₂',
      (auditedMutation env draws action (.value p) resource check body₁).attempt draws db₁
        = (.ok reply, db₁') ∧
      (auditedMutation env (draws.redrawn uuid) action (.value p) resource check body₂).attempt
        (draws.redrawn uuid) db₂ = (.ok (reply.swap (draws.uuid 3) (uuid 3)), db₂') ∧
      After (draws.uuid 3) (uuid 3) T db₁ db₂ db₁' db₂') ∨
    ∃ e, (auditedMutation env draws action (.value p) resource check body₁).attempt draws db₁
        = (.error e, db₁) ∧
      (auditedMutation env (draws.redrawn uuid) action (.value p) resource check body₂).attempt
        (draws.redrawn uuid) db₂ = (.error e, db₂) := by
    unfold Method.attempt auditedMutation
    cases check with
    | error e => exact Or.inr ⟨e, rfl, rfl⟩
    | ok _ => exact transaction_alike draws uuid 0 (halike rfl)
  rcases hattempt with ⟨reply, db₁', db₂', h₁, h₂, hafter⟩ | ⟨e, h₁, h₂⟩
  · unfold Method.run
    rw [h₁, h₂]
    exact ⟨rfl, hafter⟩
  · cases e with
    | validation =>
      unfold Method.run
      rw [h₁, h₂]
      exact ⟨rfl, .refl hagree⟩
    | security category =>
      rw [run_denied (show _ = some (denialBody env draws action (.value p) resource) from rfl) h₁,
        run_denied (show _ = some (denialBody env (draws.redrawn uuid) action (.value p) resource) from
          rfl) h₂]
      rcases transaction_alike draws uuid 1 (denial_alike h hrows htenant action resource) with
        ⟨reply, db₁', db₂', h₁', h₂', hafter⟩ | ⟨e, h₁', h₂'⟩
      · rw [h₁', h₂']
        exact ⟨rfl, hafter⟩
      · rw [h₁', h₂']
        exact ⟨rfl, .refl hagree⟩

/-- A method without a second transaction, whose one raises the same or commits the same answer. -/
theorem query_alike (hagree : Agree a b T db₁.toTables db₂.toTables) {m₁ m₂ : Method U}
    (hdenial₁ : m₁.denial = none) (hdenial₂ : m₂.denial = none) (hcheck : m₁.check = m₂.check)
    (hbody : (∃ e, m₁.body db₁ = .error e ∧ m₂.body db₂ = .error e) ∨
      ∃ answer db₁' db₂', m₁.body db₁ = .ok (answer, db₁') ∧
        m₂.body db₂ = .ok (answer.map (Reply.swap a b), db₂') ∧ After a b T db₁ db₂ db₁' db₂') :
    SameReply a b (m₁.run draws db₁).1 (m₂.run (draws.redrawn uuid) db₂).1 ∧
      After a b T db₁ db₂ (m₁.run draws db₁).2 (m₂.run (draws.redrawn uuid) db₂).2 := by
  unfold Method.run
  rw [hdenial₁, hdenial₂]
  simp only
  unfold Method.attempt
  rw [← hcheck]
  split
  · exact ⟨rfl, .refl hagree⟩
  · unfold transaction
    split
    · exact ⟨rfl, .refl hagree⟩
    · unfold transact
      rcases hbody with ⟨e, h₁, h₂⟩ | ⟨answer, db₁', db₂', h₁, h₂, hafter⟩
      · rw [h₁, h₂]
        exact ⟨rfl, .refl hagree⟩
      · rw [h₁, h₂]
        exact ⟨rfl, hafter⟩

/-- A transaction that inserts an audit row and answers. -/
theorem record_alike (h : Twin env T draws uuid 1 db₁ db₂) (htenant : (p.scope env.toIds).tenant = T)
    (action : Str) (resource : Option U) (outcome : Outcome) {answer : Except Raised (Reply U)}
    (hanswer : answer.map (Reply.swap (draws.uuid 3) (uuid 3)) = answer) :
    ∃ answer' db₁' db₂',
      (db₁.record env (draws.uuid 0) (draws.stamp 2) (.value p) action resource outcome).map
        (fun db => (answer, db)) = .ok (answer', db₁') ∧
      (db₂.record env (uuid 0) (draws.stamp 2) (.value p) action resource outcome).map
        (fun db => (answer, db)) = .ok (answer'.map (Reply.swap (draws.uuid 3) (uuid 3)), db₂') ∧
      After (draws.uuid 3) (uuid 3) T db₁ db₂ db₁' db₂' := by
  rw [record_ok h.room₁ (h.fresh₁.audit 0), record_ok h.room₂ (h.fresh₂.audit 0)]
  have hafter := (After.refl h.agree).record htenant (draws.uuid 0) (uuid 0) (draws.stamp 2) action
    resource outcome
  refine ⟨answer, _, _, rfl, ?_, hafter⟩
  rw [hanswer]
  rfl

/-- In two states that have the rows of a tenant in common, with room for audit rows, and with the same
readings of the clock, a call of a principal of the tenant returns the same or raises the same; the rows
of the tenant are then the same again, up to the fresh id of a grant, the rows of other tenants are as
they were, and the same audit rows of the tenant were inserted, up to their ids. -/
theorem tenants_isolated (env : AuthorityEnv U) (T : U) (draws : Draws U) (uuid : Nat → U) (p : Principal)
    (htenant : (p.scope env.toIds).tenant = T) (call : Call U) (hby : call.By p) (db₁ db₂ : Db U)
    (h : Twin env T draws uuid call.auditRows db₁ db₂) :
    SameReply (draws.uuid 3) (uuid 3) (db₁.call env (call, draws)).1
      (db₂.call env (call, draws.redrawn uuid)).1 ∧
    After (draws.uuid 3) (uuid 3) T db₁ db₂ (db₁.next env (call, draws))
      (db₂.next env (call, draws.redrawn uuid)) := by
  have hagree := h.agree
  cases call with
  | auditAuthentication | register | registerDocument => cases hby
  | authorize principal action resource =>
    obtain rfl : principal = .value p := hby
    refine query_alike hagree rfl rfl rfl (Or.inr ?_)
    simp only [Call.method, authorize]
    rw [← checkAction_agree h.keyed₁ h.keyed₂ hagree htenant]
    refine record_alike h htenant _ _ _ ?_
    split <;> rfl
  | snapshot principal documentIds action =>
    obtain rfl : principal = .value p := hby
    refine query_alike hagree rfl rfl rfl (Or.inr ?_)
    simp only [Call.method, snapshot]
    rw [← takeSnapshot_agree h.keyed₁ h.keyed₂ hagree htenant]
    refine record_alike h htenant _ _ _ ?_
    split <;> rfl
  | revalidate s =>
    refine query_alike hagree rfl rfl rfl ?_
    simp only [Call.method, revalidate]
    have hsame : checkSnapshot env draws.expiry s db₁.toTables = checkSnapshot env draws.expiry s db₂.toTables := by
      cases s with
      | other n => rfl
      | value s => exact checkSnapshot_agree h.keyed₁ h.keyed₂ hagree htenant hby
    rw [← hsame]
    cases checkSnapshot env draws.expiry s db₁.toTables with
    | error e => exact Or.inl ⟨e, rfl, rfl⟩
    | ok _ => exact Or.inr ⟨.ok .nothing, db₁, db₂, rfl, rfl, .refl hagree⟩
  | share principal d grantee revoke =>
    obtain rfl : principal = .value p := hby
    refine mutation_alike h (Nat.succ_pos _) htenant fun hcheck => ?_
    cases grantee with
    | uuid grantee => exact share_alike h htenant d grantee revoke
    | text grantee => cases hcheck
    | other n => cases hcheck
  | tombstone principal d =>
    obtain rfl : principal = .value p := hby
    exact mutation_alike h (Nat.succ_pos _) htenant fun _ => tombstone_alike h htenant d
  | trackPurge operator d =>
    obtain rfl : operator = .value p := hby
    exact mutation_alike h (Nat.succ_pos _) htenant fun _ => trackPurge_alike h htenant d
  | disablePrincipal operator owner =>
    obtain rfl : operator = .value p := hby
    exact mutation_alike h (Nat.succ_pos _) htenant fun _ => disablePrincipal_alike h htenant owner

end Calls

/-! ### A sample -/

section Sample

theorem sampleLimit_pos : 0 < 10 := by decide

theorem sampleLimit_le : 10 ≤ 10000000 := by decide

def sampleEnv : AuthorityEnv Nat where
  toIds := tableIds keep [] []
  auditLimit := 10
  auditLimit_pos := sampleLimit_pos
  auditLimit_le := sampleLimit_le

def samplePrincipal : Principal :=
  ⟨"issuer".toList, "subject".toList, "tenant".toList, ∅, .user, 10⟩

/-- The scope of the sample principal. -/
def sampleScope : Scope Nat := samplePrincipal.scope sampleEnv.toIds

def sampleRow : PrincipalRow Nat :=
  ⟨sampleScope.owner, sampleScope.tenant, samplePrincipal.identity, ∅, .user, 0, false⟩

/-- A principal of another tenant. -/
def foreignRow : PrincipalRow Nat :=
  ⟨sampleScope.owner + 1, sampleScope.tenant + 1, [], ∅, .user, 0, false⟩

/-- A document of the sample principal. -/
def sampleDocument : DocumentRow Nat := ⟨1, sampleScope.tenant, sampleScope.owner, 0, .active⟩

/-- A document of the other tenant. -/
def foreignDocument : DocumentRow Nat := ⟨2, sampleScope.tenant + 1, sampleScope.owner + 1, 0, .active⟩

/-- The rows of the sample tenant. -/
def sampleDb : Db Nat := ⟨⟨[sampleRow], [sampleDocument], [], []⟩, []⟩

/-- The same rows, among those of the other tenant. -/
def crowdedDb : Db Nat := ⟨⟨[foreignRow, sampleRow], [sampleDocument, foreignDocument], [], []⟩, []⟩

def sampleDraws : Draws Nat := ⟨fun _ => 0, fun _ => 0, fun k => k, fun _ => false⟩

theorem sample_twin : Twin sampleEnv sampleScope.tenant sampleDraws (fun k => k + 10) 1 sampleDb crowdedDb := by
  constructor
  · constructor <;> simp [sampleDb]
  · constructor <;> simp [crowdedDb, foreignRow, sampleRow, foreignDocument, sampleDocument]
  · constructor
    · intro r hr
      simp only [sampleDb, crowdedDb, List.mem_cons, List.not_mem_nil, or_false]
      refine ⟨Or.inr, fun h => h.resolve_left ?_⟩
      rintro rfl
      exact Nat.succ_ne_self _ hr
    · intro d hd
      simp only [sampleDb, crowdedDb, List.mem_cons, List.not_mem_nil, or_false]
      refine ⟨Or.inl, fun h => h.resolve_right ?_⟩
      rintro rfl
      exact Nat.succ_ne_self _ hd
    · exact fun _ _ => Iff.rfl
    · exact fun _ _ => Iff.rfl
  · decide
  · decide
  · constructor
    · intro _ _ hg
      cases hg
    · intro _ _ hr
      cases hr
    · intro _ _ h
      exact h
  · constructor
    · intro _ _ hg
      cases hg
    · intro _ _ hr
      cases hr
    · intro _ _ h
      exact Nat.add_right_cancel h

/-- A share with a principal that only one of the states has, in the other tenant. -/
theorem tenants_isolated_sample :
    SameReply 3 13
      (sampleDb.call sampleEnv (.share (.value samplePrincipal) (.uuid 1)
        (.uuid (sampleScope.owner + 1)) false, sampleDraws)).1
      (crowdedDb.call sampleEnv (.share (.value samplePrincipal) (.uuid 1)
        (.uuid (sampleScope.owner + 1)) false, sampleDraws.redrawn fun k => k + 10)).1 ∧
    After 3 13 sampleScope.tenant sampleDb crowdedDb
      (sampleDb.next sampleEnv (.share (.value samplePrincipal) (.uuid 1)
        (.uuid (sampleScope.owner + 1)) false, sampleDraws))
      (crowdedDb.next sampleEnv (.share (.value samplePrincipal) (.uuid 1)
        (.uuid (sampleScope.owner + 1)) false, sampleDraws.redrawn fun k => k + 10)) :=
  tenants_isolated sampleEnv sampleScope.tenant sampleDraws (fun k => k + 10) samplePrincipal rfl
    (.share (.value samplePrincipal) (.uuid 1) (.uuid (sampleScope.owner + 1)) false) rfl sampleDb
    crowdedDb sample_twin

end Sample

end Polymind.Security
