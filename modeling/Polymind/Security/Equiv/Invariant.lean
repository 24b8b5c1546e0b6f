import Polymind.Security.Equiv.Changes

/-!
# Invariants of the security authority

Every change of the tables keeps their keys distinct (`Keyed`), documents with their owner's tenant
and open grants on active documents within the tenant (`Sound`).  `Evolves` says how a row may
change: a principal or a document with the same epoch is the same, grants included.
-/

namespace Polymind.Security

variable {U : Type} [DecidableEq U]

/-- The keys of the schema. -/
structure Keyed (t : Tables U) : Prop where
  principals : (t.principals.map PrincipalRow.owner).Nodup
  documents : (t.documents.map DocumentRow.document).Nodup
  grants : (t.grants.map fun g => (g.document, g.grantee)).Nodup
  purge : (t.purge.map PurgeRow.document).Nodup

omit [DecidableEq U] in
/-- An update of grants that keeps what they are of. -/
theorem nodup_grants_update {cond : GrantRow U → Bool} {set : GrantRow U → GrantRow U}
    {rows : List (GrantRow U)}
    (hset : ∀ g, ((set g).document, (set g).grantee) = (g.document, g.grantee))
    (h : (rows.map fun g => (g.document, g.grantee)).Nodup) :
    ((Table.update cond set rows).map fun g => (g.document, g.grantee)).Nodup := by
  rw [Table.map_update fun g _ => hset g]
  exact h

/-- Documents and open grants stay inside a tenant. -/
structure Sound (t : Tables U) : Prop extends Keyed t where
  owned : ∀ d ∈ t.documents, t.OfTenant d.owner d.tenant
  live : ∀ g ∈ t.grants, g.revoked = none →
    ∃ d ∈ t.documents, d.document = g.document ∧ d.state = .active ∧ t.OfTenant g.grantee d.tenant

section Change

variable {t t' : Tables U}

theorem keyed_change (h : Change t t') (hk : Keyed t) : Keyed t' := by
  cases h with
  | nothing => exact hk
  | enrolls row hnew =>
    exact { hk with principals := Table.nodup_insert hk.principals (Table.lookup_eq_none.mp hnew) }
  | reroles owner permissions kind =>
    exact { hk with principals := Table.nodup_update (fun _ _ => rfl) hk.principals }
  | registers row hnew howner =>
    exact { hk with documents := Table.nodup_insert hk.documents (Table.lookup_eq_none.mp hnew) }
  | grants doc g hdoc hactive hgrantee hof hnew =>
    exact { hk with
      documents := Table.nodup_update (fun _ _ => rfl) hk.documents
      grants := Table.nodup_insert hk.grants hnew }
  | regrants doc grantee revoked hdoc hactive hgrantee =>
    exact { hk with
      documents := Table.nodup_update (fun _ _ => rfl) hk.documents
      grants := nodup_grants_update (fun _ => rfl) hk.grants }
  | tombstones doc time hdoc hactive =>
    exact { hk with
      documents := Table.nodup_update (fun _ _ => rfl) hk.documents
      grants := nodup_grants_update (fun _ => rfl) hk.grants }
  | purges doc purge hdoc hgone hpurge =>
    refine { hk with documents := Table.nodup_update (fun _ _ => rfl) hk.documents, purge := ?_ }
    rcases hpurge with rfl | ⟨hnew, rfl⟩
    · exact hk.purge
    · exact Table.nodup_insert hk.purge (Table.lookup_eq_none.mp hnew)
  | disables owner =>
    exact { hk with principals := Table.nodup_update (fun _ _ => rfl) hk.principals }

/-- Principals stay in their tenant. -/
theorem ofTenant_change (h : Change t t') {owner tenant : U} (hof : t.OfTenant owner tenant) :
    t'.OfTenant owner tenant := by
  cases h with
  | enrolls row hnew =>
    obtain ⟨r, hr, hrow⟩ := hof
    exact ⟨r, List.mem_append_left _ hr, hrow⟩
  | reroles => exact Table.exists_update (fun _ _ hrow => hrow) (fun _ hrow => hrow) hof
  | disables => exact Table.exists_update (fun _ _ hrow => hrow) (fun _ hrow => hrow) hof
  | _ => exact hof

/-- A document by its id is the row with the id. -/
theorem document?_eq_some_iff (hk : Keyed t) {u : U} {d : DocumentRow U} :
    t.document? (some u) = some d ↔ d ∈ t.documents ∧ d.document = u :=
  Table.lookup_eq_some_iff hk.documents

theorem principal?_eq_some_iff (hk : Keyed t) {u : U} {r : PrincipalRow U} :
    t.principal? u = some r ↔ r ∈ t.principals ∧ r.owner = u :=
  Table.lookup_eq_some_iff hk.principals

/-! ### Soundness -/

theorem owned_change (h : Change t t') (ho : ∀ d ∈ t.documents, t.OfTenant d.owner d.tenant) :
    ∀ d ∈ t'.documents, t'.OfTenant d.owner d.tenant := by
  -- a row of the table after an update has the owner and the tenant of a row before it
  have hupdate : ∀ {cond : DocumentRow U → Bool} {set : DocumentRow U → DocumentRow U},
      ∀ d ∈ Table.update cond set t.documents,
      (∀ r, (set r).owner = r.owner ∧ (set r).tenant = r.tenant) → t.OfTenant d.owner d.tenant := by
    intro cond set d hd hset
    rcases Table.mem_update.mp hd with ⟨r, hr, -, rfl⟩ | ⟨hd, -⟩
    · rw [(hset r).1, (hset r).2]
      exact ho r hr
    · exact ho d hd
  intro d hd
  refine ofTenant_change h ?_
  cases h with
  | registers row hnew howner =>
    rcases List.mem_append.mp hd with hd | hd
    · exact ho d hd
    · obtain rfl := List.mem_singleton.mp hd
      exact howner
  | grants => exact hupdate d hd fun _ => ⟨rfl, rfl⟩
  | regrants => exact hupdate d hd fun _ => ⟨rfl, rfl⟩
  | tombstones => exact hupdate d hd fun _ => ⟨rfl, rfl⟩
  | purges => exact hupdate d hd fun _ => ⟨rfl, rfl⟩
  | _ => exact ho d hd

/-- An active document of a tenant that a principal is of. -/
def ActiveFor (t : Tables U) (document grantee : U) : Prop :=
  ∃ d ∈ t.documents, d.document = document ∧ d.state = .active ∧ t.OfTenant grantee d.tenant

theorem activeFor_bump {document grantee u : U} (h : ActiveFor t document grantee) (grants) :
    ActiveFor { t with grants, documents := bump u t.documents } document grantee :=
  Table.exists_update (fun _ _ hd => hd) (fun _ hd => hd) h

/-- An active document stays active while another one moves. -/
theorem activeFor_moved {document grantee u : U} (h : ActiveFor t document grantee)
    (hne : document ≠ u) (state : DocumentState) (epochs : Nat) (grants purge) :
    ActiveFor { t with grants, purge, documents := moved u state epochs t.documents } document
      grantee := by
  refine Table.exists_update (fun d hd hfor => ?_) (fun _ hd => hd) h
  exact absurd (hfor.1.symm.trans (of_decide_eq_true hd)) hne

theorem live_change (h : Change t t') (hs : Sound t) {g : GrantRow U} (hg : g ∈ t'.grants)
    (hopen : g.revoked = none) : ActiveFor t' g.document g.grantee := by
  cases h with
  | nothing => exact hs.live g hg hopen
  | enrolls row hnew =>
    obtain ⟨d, hd, hid, hactive, hof⟩ := hs.live g hg hopen
    exact ⟨d, hd, hid, hactive, ofTenant_change (.enrolls row hnew) hof⟩
  | reroles owner permissions kind =>
    obtain ⟨d, hd, hid, hactive, hof⟩ := hs.live g hg hopen
    exact ⟨d, hd, hid, hactive, ofTenant_change (.reroles owner permissions kind) hof⟩
  | disables owner =>
    obtain ⟨d, hd, hid, hactive, hof⟩ := hs.live g hg hopen
    exact ⟨d, hd, hid, hactive, ofTenant_change (.disables owner) hof⟩
  | registers row hnew howner =>
    obtain ⟨d, hd, hrest⟩ := hs.live g hg hopen
    exact ⟨d, List.mem_append_left _ hd, hrest⟩
  | grants doc g' hdoc hactive hgrantee hof hnew =>
    refine activeFor_bump ?_ _
    rcases List.mem_append.mp hg with hg | hg
    · exact hs.live g hg hopen
    · obtain rfl := List.mem_singleton.mp hg
      exact ⟨doc, (Tables.document?_mem hdoc).1, hof.symm, hactive, hgrantee⟩
  | regrants doc grantee revoked hdoc hactive hgrantee =>
    refine activeFor_bump ?_ _
    rcases Table.mem_update.mp hg with ⟨g₀, -, hc, rfl⟩ | ⟨hg, -⟩
    · have hkey : (g₀.document, g₀.grantee) = (doc.document, grantee) := of_decide_eq_true hc
      rw [Prod.mk.injEq] at hkey
      exact ⟨doc, (Tables.document?_mem hdoc).1, hkey.1.symm, hactive, hkey.2 ▸ hgrantee⟩
    · exact hs.live g hg hopen
  | tombstones doc time hdoc hactive =>
    rcases Table.mem_update.mp hg with ⟨g₀, -, -, rfl⟩ | ⟨hg, hc⟩
    · -- a grant of the tombstoned document is revoked
      cases hr : g₀.revoked <;> simp [hr] at hopen
    · exact activeFor_moved (hs.live g hg hopen) (of_decide_eq_false hc) _ _ _ _
  | purges doc purge hdoc hgone hpurge =>
    refine activeFor_moved (hs.live g hg hopen) (fun heq => hgone ?_) _ _ _ _
    obtain ⟨d, hd, hid, hactive, -⟩ := hs.live g hg hopen
    obtain ⟨hdoc, -⟩ := Tables.document?_mem hdoc
    rw [← Table.eq_of_key hs.documents hd hdoc (hid.trans heq)]
    exact hactive

theorem sound_change (h : Change t t') (hs : Sound t) : Sound t' where
  toKeyed := keyed_change h hs.toKeyed
  owned := owned_change h hs.owned
  live := fun _ hg hopen => live_change h hs hg hopen

/-! ### Evolution -/

/-- How the row of a principal may change. -/
structure PrincipalEvolves (r r' : PrincipalRow U) : Prop where
  owner : r'.owner = r.owner
  tenant : r'.tenant = r.tenant
  identity : r'.identity = r.identity
  epoch_le : r.epoch ≤ r'.epoch
  same : r'.epoch = r.epoch → r' = r

/-- How the row of a document and its grants may change. -/
structure DocumentEvolves (t t' : Tables U) (d d' : DocumentRow U) : Prop where
  document : d'.document = d.document
  tenant : d'.tenant = d.tenant
  owner : d'.owner = d.owner
  gone : d.state ≠ .active → d'.state ≠ .active
  epoch_le : d.epoch ≤ d'.epoch
  active : d'.epoch = d.epoch → d.state = .active → d'.state = .active
  grants : d'.epoch = d.epoch → t'.grantsOf d.document = t.grantsOf d.document

/-- How the tables may change. -/
structure Evolves (t t' : Tables U) : Prop where
  principals : ∀ r ∈ t.principals, ∃ r' ∈ t'.principals, PrincipalEvolves r r'
  documents : ∀ d ∈ t.documents, ∃ d' ∈ t'.documents, DocumentEvolves t t' d d'

omit [DecidableEq U] in
theorem PrincipalEvolves.refl (r : PrincipalRow U) : PrincipalEvolves r r :=
  ⟨rfl, rfl, rfl, le_refl _, fun _ => rfl⟩

theorem DocumentEvolves.refl {d : DocumentRow U} (h : t'.grantsOf d.document = t.grantsOf d.document) :
    DocumentEvolves t t' d d :=
  ⟨rfl, rfl, rfl, id, le_refl _, fun _ => id, fun _ => h⟩

omit [DecidableEq U] in
theorem PrincipalEvolves.trans {r r' r'' : PrincipalRow U} (h : PrincipalEvolves r r')
    (h' : PrincipalEvolves r' r'') : PrincipalEvolves r r'' := by
  constructor
  · exact h'.owner.trans h.owner
  · exact h'.tenant.trans h.tenant
  · exact h'.identity.trans h.identity
  · exact h.epoch_le.trans h'.epoch_le
  · intro heq
    have hle := h.epoch_le
    have hle' := h'.epoch_le
    exact (h'.same (by omega)).trans (h.same (by omega))

theorem DocumentEvolves.trans {t'' : Tables U} {d d' d'' : DocumentRow U}
    (h : DocumentEvolves t t' d d') (h' : DocumentEvolves t' t'' d' d'') :
    DocumentEvolves t t'' d d'' := by
  have hle := h.epoch_le
  have hle' := h'.epoch_le
  constructor
  · exact h'.document.trans h.document
  · exact h'.tenant.trans h.tenant
  · exact h'.owner.trans h.owner
  · exact fun hgone => h'.gone (h.gone hgone)
  · exact hle.trans hle'
  · exact fun heq hactive => h'.active (by omega) (h.active (by omega) hactive)
  · intro heq
    have hgrants := h'.grants (by omega)
    rw [h.document] at hgrants
    exact hgrants.trans (h.grants (by omega))

theorem Evolves.refl (t : Tables U) : Evolves t t where
  principals := fun r hr => ⟨r, hr, .refl r⟩
  documents := fun d hd => ⟨d, hd, .refl rfl⟩

theorem Evolves.trans {t'' : Tables U} (h : Evolves t t') (h' : Evolves t' t'') : Evolves t t'' := by
  constructor
  · intro r hr
    obtain ⟨r', hr', hevolves⟩ := h.principals r hr
    obtain ⟨r'', hr'', hevolves'⟩ := h'.principals r' hr'
    exact ⟨r'', hr'', hevolves.trans hevolves'⟩
  · intro d hd
    obtain ⟨d', hd', hevolves⟩ := h.documents d hd
    obtain ⟨d'', hd'', hevolves'⟩ := h'.documents d' hd'
    exact ⟨d'', hd'', hevolves.trans hevolves'⟩

theorem principals_change (h : Change t t') :
    ∀ r ∈ t.principals, ∃ r' ∈ t'.principals, PrincipalEvolves r r' := by
  -- an update that gives each row it changes one more epoch
  have hupdate : ∀ {cond : PrincipalRow U → Bool} {set : PrincipalRow U → PrincipalRow U},
      (∀ r, (set r).owner = r.owner ∧ (set r).tenant = r.tenant ∧ (set r).identity = r.identity ∧
        (set r).epoch = r.epoch + 1) →
      ∀ r ∈ t.principals, ∃ r' ∈ Table.update cond set t.principals, PrincipalEvolves r r' := by
    intro cond set hset r hr
    refine Table.exists_update (P := fun row => row = r) ?_ ?_ ⟨r, hr, rfl⟩
    · rintro row - rfl
      obtain ⟨howner, htenant, hidentity, hepoch⟩ := hset row
      exact ⟨howner, htenant, hidentity, by omega, fun heq => by omega⟩
    · rintro row rfl
      exact .refl row
  intro r hr
  cases h with
  | enrolls row hnew => exact ⟨r, List.mem_append_left _ hr, .refl r⟩
  | reroles =>
    refine hupdate ?_ r hr
    exact fun _ => ⟨rfl, rfl, rfl, rfl⟩
  | disables =>
    refine hupdate ?_ r hr
    exact fun _ => ⟨rfl, rfl, rfl, rfl⟩
  | _ => exact ⟨r, hr, .refl r⟩

/-- A change that rewrites the row of one document and only its grants. -/
theorem documents_update {u : U} {set : DocumentRow U → DocumentRow U}
    (hdocuments : t'.documents = Table.update (fun r => r.document = u) set t.documents)
    (hset : ∀ d ∈ t.documents, d.document = u → DocumentEvolves t t' d (set d))
    (hgrants : ∀ v, v ≠ u → t'.grantsOf v = t.grantsOf v) :
    ∀ d ∈ t.documents, ∃ d' ∈ t'.documents, DocumentEvolves t t' d d' := by
  intro d hd
  rw [hdocuments]
  by_cases hu : d.document = u
  · exact ⟨set d, Table.mem_update.mpr (Or.inl ⟨d, hd, decide_eq_true hu, rfl⟩), hset d hd hu⟩
  · exact ⟨d, Table.mem_update.mpr (Or.inr ⟨hd, decide_eq_false hu⟩), .refl (hgrants _ hu)⟩

/-- One more epoch for a document that stays as it is. -/
theorem evolves_bump {u : U} {grants : List (GrantRow U)}
    (hgrants : ∀ v, v ≠ u → (grants.filter fun g => g.document = v) = t.grantsOf v) :
    ∀ d ∈ t.documents, ∃ d' ∈ bump u t.documents,
      DocumentEvolves t { t with grants, documents := bump u t.documents } d d' := by
  refine @documents_update U _ t { t with grants, documents := bump u t.documents } u _ rfl ?_ hgrants
  intro d _ _
  exact ⟨rfl, rfl, rfl, id, Nat.le_succ _, fun _ => id, fun heq => absurd heq (Nat.succ_ne_self _)⟩

theorem documents_change (hk : Keyed t) (h : Change t t') :
    ∀ d ∈ t.documents, ∃ d' ∈ t'.documents, DocumentEvolves t t' d d' := by
  cases h with
  | nothing => exact fun d hd => ⟨d, hd, .refl rfl⟩
  | enrolls => exact fun d hd => ⟨d, hd, .refl rfl⟩
  | reroles => exact fun d hd => ⟨d, hd, .refl rfl⟩
  | disables => exact fun d hd => ⟨d, hd, .refl rfl⟩
  | registers row hnew howner => exact fun d hd => ⟨d, List.mem_append_left _ hd, .refl rfl⟩
  | grants doc g hdoc hactive hgrantee hof hnew =>
    refine evolves_bump fun v hv => ?_
    rw [List.filter_append, Tables.grantsOf]
    simp [hof, Ne.symm hv]
  | regrants doc grantee revoked hdoc hactive hgrantee =>
    refine evolves_bump fun v hv => Table.filter_update fun g hg => ?_
    have hkey : (g.document, g.grantee) = (doc.document, grantee) := of_decide_eq_true hg
    rw [Prod.mk.injEq] at hkey
    simp [hkey.1, Ne.symm hv]
  | tombstones doc time hdoc hactive =>
    refine documents_update rfl ?_ fun v hv => Table.filter_update fun g hg => ?_
    · intro d _ _
      exact ⟨rfl, rfl, rfl, fun _ => by simp, Nat.le_succ _,
        fun heq => absurd heq (Nat.succ_ne_self _), fun heq => absurd heq (Nat.succ_ne_self _)⟩
    · simp [of_decide_eq_true hg, Ne.symm hv]
  | purges doc purge hdoc hgone hpurge =>
    refine documents_update rfl ?_ fun _ _ => rfl
    intro d hd hid
    -- the row is the one that was found, which is not active
    obtain rfl := Table.eq_of_key hk.documents hd (Tables.document?_mem hdoc).1 hid
    exact ⟨rfl, rfl, rfl, fun _ => by simp, le_refl _, fun _ hactive => absurd hactive hgone,
      fun _ => rfl⟩

theorem evolves_change (hk : Keyed t) (h : Change t t') : Evolves t t' :=
  ⟨principals_change h, documents_change hk h⟩

end Change

/-! ### Runs -/

omit [DecidableEq U] in
theorem sound_empty : Sound (Db.empty : Db U).toTables := by
  constructor
  · constructor <;> exact List.nodup_nil
  · intro d hd
    cases hd
  · intro g hg
    cases hg

theorem sound_run (env : AuthorityEnv U) {db : Db U} (h : Sound db.toTables) (events : List (Call U × Draws U)) :
    Sound (db.run env events).toTables :=
  Traces.exec_invariant (fun db : Db U => Sound db.toTables)
    (fun db event _ hs => sound_change (call_spec env db event).1 hs) (Traces.along_true db events) h

/-- Rows evolve along every run. -/
theorem evolves_run (env : AuthorityEnv U) {db : Db U} (h : Sound db.toTables) (events : List (Call U × Draws U)) :
    Evolves db.toTables (db.run env events).toTables := by
  have hinv : Sound (db.run env events).toTables ∧ Evolves db.toTables (db.run env events).toTables :=
    Traces.exec_invariant (fun db' : Db U => Sound db'.toTables ∧ Evolves db.toTables db'.toTables)
      (fun db' event _ hs => by
        have hchange := (call_spec env db' event).1
        exact ⟨sound_change hchange hs.1, hs.2.trans (evolves_change hs.1.toKeyed hchange)⟩)
      (Traces.along_true db events) ⟨h, .refl _⟩
  exact hinv.2

end Polymind.Security
