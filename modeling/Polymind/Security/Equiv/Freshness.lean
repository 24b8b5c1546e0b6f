import Polymind.Security.Equiv.Invariant

/-!
# Authorization snapshots never outlive a change

A snapshot that revalidates could be taken again (`takeSnapshot_of_checkSnapshot`): the epochs of the
principal and of its documents are those of the snapshot.  Rows evolve, and one with the same epoch is
the same, so nothing changed in between, nor was a change undone (`unchanged_between`).
-/

namespace Polymind.Security

variable {U : Type} [DecidableEq U] {env : AuthorityEnv U} {draws : Draws U}

/-! ### Answers -/

omit [DecidableEq U] in
/-- A call that returns committed its transaction, and no other. -/
theorem run_ok {m : Method U} {db : Db U} {reply : Reply U} (h : (m.run draws db).1 = .ok reply) :
    m.check = .ok () ∧ m.body db = .ok (.ok reply, (m.run draws db).2) := by
  have hattempt : m.run draws db = m.attempt draws db := by
    unfold Method.run at h ⊢
    split at h
    · split at h <;> cases h
    · rfl
  rw [hattempt] at h ⊢
  unfold Method.attempt at h ⊢
  split at h
  · cases h
  · next hcheck =>
    refine ⟨hcheck, ?_⟩
    unfold transaction at h ⊢
    split at h
    · cases h
    · next hfails =>
      rw [if_neg hfails]
      unfold transact at h ⊢
      cases hbody : m.body db with
      | error e =>
        rw [hbody] at h
        cases h
      | ok result =>
        obtain ⟨answer, db'⟩ := result
        rw [hbody] at h
        obtain rfl : answer = .ok reply := h
        rfl

/-- A call of `snapshot` that returns took the snapshot and left the tables alone. -/
theorem snapshot_ok {db : Db U} {principal : Arg Principal} {documentIds : Option (List (IdArg U))}
    {action : Arg Action} {s : AuthorizationSnapshot U}
    (h : (db.call env (.snapshot principal documentIds action, draws)).1 = .ok (.snapshot s)) :
    takeSnapshot env draws.expiry principal (documentIds.getD []) action db.toTables = .ok s ∧
      (db.next env (.snapshot principal documentIds action, draws)).toTables = db.toTables := by
  obtain ⟨-, hbody⟩ := run_ok h
  obtain ⟨db₁, hrecord, heq⟩ := map_eq_ok.mp hbody
  obtain ⟨-, row, rfl⟩ := record_eq_ok hrecord
  obtain ⟨hanswer, hdb⟩ := Prod.mk.inj heq
  constructor
  · split at hanswer
    · next hs =>
      cases hanswer
      exact hs
    · cases hanswer
  · have hnext : db.next env (.snapshot principal documentIds action, draws)
        = { db with audit := db.audit ++ [row] } := hdb.symm
    rw [hnext]

/-- A call of `revalidate` that returns passed the checks that the entry into `release` makes. -/
theorem revalidate_ok {db : Db U} {s : Arg (AuthorizationSnapshot U)} {reply : Reply U}
    (h : (db.call env (.revalidate s, draws)).1 = .ok reply) :
    checkSnapshot env draws.expiry s db.toTables = .ok () := by
  obtain ⟨⟨⟩, hcheck, -⟩ := map_eq_ok.mp (run_ok h).2
  exact hcheck

/-! ### What a snapshot says of the tables -/

section Snapshots

variable {t : Tables U} {s : AuthorizationSnapshot U}

theorem snapshotDocuments_of_revalidate {i : Nat} {docs : List (IdArg U × Scope U × Nat)}
    (h : revalidateDocuments env draws.expiry s t i docs = .ok ()) :
    snapshotDocuments env draws.expiry s.principal s.action t i (docs.map Prod.fst) = .ok docs := by
  induction docs generalizing i with
  | nil => rfl
  | cons entry docs ih =>
    obtain ⟨d, scope, epoch⟩ := entry
    unfold revalidateDocuments at h
    split at h
    · cases h
    · next row hrow =>
      split at h
      · cases h
      · next hsame =>
        obtain ⟨hepoch, hscope⟩ : row.epoch = epoch ∧ scope = ⟨row.tenant, row.owner⟩ := by
          simpa [not_or] using hsame
        rw [List.map_cons, snapshotDocuments, hrow]
        simp only
        rw [ih h, hepoch, hscope]
        rfl

/-- A snapshot that passes `_revalidate` would be taken again, of the same documents, by the rules of
`snapshot`. -/
theorem takeSnapshot_of_checkSnapshot (h : checkSnapshot env draws.expiry (.value s) t = .ok ()) :
    takeSnapshot env draws.expiry s.principal (s.documents.map Prod.fst) s.action t = .ok s := by
  unfold checkSnapshot at h
  simp only at h
  split at h
  · cases h
  · next hpolicy =>
    split at h
    · cases h
    · next row hrow =>
      split at h
      · cases h
      · next hepoch =>
        rw [takeSnapshot, hrow]
        simp only
        rw [snapshotDocuments_of_revalidate h, not_not.mp hepoch, ← not_not.mp hpolicy]
        rfl

/-- The tables hold the rows that the snapshot was taken of. -/
structure Holds (env : AuthorityEnv U) (s : AuthorizationSnapshot U) (t : Tables U) : Prop where
  principal : ∀ p, s.principal = .value p → ∃ row, t.principal? (p.scope env.toIds).owner = some row ∧
    row.epoch = s.principalEpoch
  documents : ∀ entry ∈ s.documents, ∃ u row, entry.1 = .uuid u ∧ t.document? (some u) = some row ∧
    row.state = .active ∧ row.epoch = entry.2.2

theorem snapshotDocuments_ok {principal : Arg Principal} {action : Arg Action} {i : Nat}
    {ds : List (IdArg U)} {docs : List (IdArg U × Scope U × Nat)}
    (h : snapshotDocuments env draws.expiry principal action t i ds = .ok docs) :
    docs.map Prod.fst = ds ∧ ∀ entry ∈ docs, ∃ u row, entry.1 = .uuid u ∧
      t.document? (some u) = some row ∧ row.state = .active ∧ row.epoch = entry.2.2 := by
  induction ds generalizing i docs with
  | nil =>
    cases h
    exact ⟨rfl, fun _ hentry => by cases hentry⟩
  | cons d ds ih =>
    unfold snapshotDocuments at h
    split at h
    · cases h
    · next p row hrow =>
      obtain ⟨rest, hrest, rfl⟩ := map_eq_ok.mp h
      obtain ⟨hids, hdocs⟩ := ih hrest
      obtain ⟨-, -, rfl, hfound, -, hactive⟩ := checkDocument_ok hrow
      constructor
      · rw [List.map_cons, hids]
      · intro entry hentry
        rcases List.mem_cons.mp hentry with rfl | hentry
        · exact ⟨row.document, row, rfl, hfound, hactive, rfl⟩
        · exact hdocs entry hentry

theorem takeSnapshot_ok {principal : Arg Principal} {ds : List (IdArg U)} {action : Arg Action}
    (h : takeSnapshot env draws.expiry principal ds action t = .ok s) :
    s.principal = principal ∧ s.documents.map Prod.fst = ds ∧ s.action = action ∧
      (∃ p, principal = .value p ∧ draws.expiry 0 < p.expires) ∧ Holds env s t := by
  unfold takeSnapshot at h
  split at h
  · cases h
  · next p row hrow =>
    obtain ⟨docs, hdocs, rfl⟩ := map_eq_ok.mp h
    obtain ⟨rfl, hexpires, hfound, -⟩ := checkPrincipal_ok hrow
    obtain ⟨hids, hholds⟩ := snapshotDocuments_ok hdocs
    refine ⟨rfl, hids, rfl, ⟨p, rfl, hexpires⟩, ?_, hholds⟩
    intro q hq
    cases hq
    exact ⟨row, hfound, rfl⟩

end Snapshots

/-! ### Between two states -/

/-- The rows that a snapshot depends on are the same: that of its principal, and for each of its
documents the row, which is active, and the grants. -/
structure Unchanged (env : AuthorityEnv U) (s : AuthorizationSnapshot U) (t t' : Tables U) : Prop where
  principal : ∀ p, s.principal = .value p → ∃ row, t.principal? (p.scope env.toIds).owner = some row ∧
    t'.principal? (p.scope env.toIds).owner = some row
  documents : ∀ entry ∈ s.documents, ∃ u row, entry.1 = .uuid u ∧ t.document? (some u) = some row ∧
    t'.document? (some u) = some row ∧ row.state = .active ∧ t'.grantsOf u = t.grantsOf u

/-- Between two states that hold the rows of a snapshot, nothing changed. -/
theorem unchanged_between {s : AuthorizationSnapshot U} {t t' t'' : Tables U} (hk : Keyed t)
    (hk' : Keyed t') (hk'' : Keyed t'') (hevolves : Evolves t t') (hevolves' : Evolves t' t'')
    (hholds : Holds env s t) (hholds'' : Holds env s t'') : Unchanged env s t t' := by
  constructor
  · intro p hp
    obtain ⟨row, hrow, hepoch⟩ := hholds.principal p hp
    obtain ⟨row'', hrow'', hepoch''⟩ := hholds''.principal p hp
    obtain ⟨hmem, howner⟩ := (principal?_eq_some_iff hk).mp hrow
    obtain ⟨hmem'', howner''⟩ := (principal?_eq_some_iff hk'').mp hrow''
    obtain ⟨r', hr', hsteps⟩ := hevolves.principals row hmem
    obtain ⟨r'', hr'', hsteps'⟩ := hevolves'.principals r' hr'
    -- the row in the last state is the one the snapshot holds there, so no epoch was added
    obtain rfl : r'' = row'' := Table.eq_of_key hk''.principals hr'' hmem''
      (by rw [hsteps'.owner, hsteps.owner, howner, howner''])
    have hle := hsteps.epoch_le
    have hle' := hsteps'.epoch_le
    obtain rfl : r' = row := hsteps.same (by omega)
    exact ⟨r', hrow, (principal?_eq_some_iff hk').mpr ⟨hr', howner⟩⟩
  · intro entry hentry
    obtain ⟨u, row, hu, hrow, hactive, hepoch⟩ := hholds.documents entry hentry
    obtain ⟨u'', row'', hu'', hrow'', -, hepoch''⟩ := hholds''.documents entry hentry
    obtain rfl : u = u'' := by
      rw [hu] at hu''
      exact IdArg.uuid.inj hu''
    obtain ⟨hmem, hid⟩ := (document?_eq_some_iff hk).mp hrow
    obtain ⟨hmem'', hid''⟩ := (document?_eq_some_iff hk'').mp hrow''
    obtain ⟨d', hd', hsteps⟩ := hevolves.documents row hmem
    obtain ⟨d'', hd'', hsteps'⟩ := hevolves'.documents d' hd'
    obtain rfl : d'' = row'' := Table.eq_of_key hk''.documents hd'' hmem''
      (by rw [hsteps'.document, hsteps.document, hid, hid''])
    have hle := hsteps.epoch_le
    have hle' := hsteps'.epoch_le
    have hsame : d'.epoch = row.epoch := by omega
    have hactive' := hsteps.active hsame hactive
    obtain rfl : d' = row := by
      obtain ⟨id, tenant, owner, epoch, state⟩ := d'
      obtain ⟨id', tenant', owner', epoch', state'⟩ := row
      simp only [DocumentRow.mk.injEq]
      exact ⟨hsteps.document, hsteps.tenant, hsteps.owner, hsame, hactive'.trans hactive.symm⟩
    refine ⟨u, d', hu, hrow, (document?_eq_some_iff hk').mpr ⟨hd', hid⟩, hactive, ?_⟩
    rw [← hid]
    exact hsteps.grants hsame

/-! ### The main result -/

/-- A snapshot taken in a reachable state passes `_revalidate`, as `revalidate` and the entry into `release`
need, only if in every state since the rows it depends on are the same, its principal is not expired, and
the same snapshot would be taken now.  No call lowers an epoch; one that changes the permissions, the
kind or the state of a principal, or the grants of a document, or tombstones it, raises its epoch. -/
theorem snapshots_fresh (env : AuthorityEnv U) (before : List (Call U × Draws U)) :
    let db := Db.empty.run env before
    (∀ principal documentIds action draws s,
      (db.call env (.snapshot principal documentIds action, draws)).1 = .ok (.snapshot s) →
      ∀ (after : List (Call U × Draws U)) (draws' : Draws U),
        let taken := db.next env (.snapshot principal documentIds action, draws)
        let later := taken.run env after
        (∀ reply, (later.call env (.revalidate (.value s), draws')).1 = .ok reply →
          checkSnapshot env draws'.expiry (.value s) later.toTables = .ok ()) ∧
        (checkSnapshot env draws'.expiry (.value s) later.toTables = .ok () →
          (∀ mid rest, after = mid ++ rest →
            Unchanged env s taken.toTables (taken.run env mid).toTables) ∧
          (∃ p, principal = .value p ∧ draws'.expiry 0 < p.expires) ∧
          takeSnapshot env draws'.expiry principal (documentIds.getD []) action later.toTables = .ok s)) ∧
    ∀ event,
      (∀ r ∈ db.principals, ∃ r' ∈ (db.next env event).principals, r'.owner = r.owner ∧
        r.epoch ≤ r'.epoch ∧
        ((r'.permissions, r'.kind, r'.disabled) ≠ (r.permissions, r.kind, r.disabled) →
          r.epoch < r'.epoch)) ∧
      ∀ d ∈ db.documents, ∃ d' ∈ (db.next env event).documents, d'.document = d.document ∧
        d.epoch ≤ d'.epoch ∧
        ((db.next env event).grantsOf d.document ≠ db.grantsOf d.document ∨
          d.state = .active ∧ d'.state ≠ .active → d.epoch < d'.epoch) := by
  intro db
  have hs : Sound db.toTables := sound_run env sound_empty before
  constructor
  · intro principal documentIds action draws s htaken after draws'
    obtain ⟨htake, htables⟩ := snapshot_ok htaken
    refine ⟨fun reply => revalidate_ok, fun hcheck => ?_⟩
    have hagain := takeSnapshot_of_checkSnapshot hcheck
    obtain ⟨hp, hids, haction, -, hholds⟩ := takeSnapshot_ok htake
    obtain ⟨-, -, -, hexpires, hholds'⟩ := takeSnapshot_ok hagain
    rw [hp, hids, haction] at hagain
    rw [hp] at hexpires
    rw [← htables] at hs hholds
    refine ⟨?_, hexpires, hagain⟩
    rintro mid rest rfl
    -- the last state is reached from the one in the middle
    have hrest : Evolves ((db.next env _).run env mid).toTables _ :=
      evolves_run env (sound_run env hs mid) rest
    have hlast := (sound_run env (sound_run env hs mid) rest).toKeyed
    rw [Db.run, Db.run, ← Traces.exec_append] at hrest hlast
    exact unchanged_between hs.toKeyed (sound_run env hs mid).toKeyed hlast (evolves_run env hs mid)
      hrest hholds hholds'
  · intro event
    have hevolves := evolves_change hs.toKeyed (call_spec env db event).1
    constructor
    · intro r hr
      obtain ⟨r', hr', hsteps⟩ := hevolves.principals r hr
      refine ⟨r', hr', hsteps.owner, hsteps.epoch_le, fun hne => ?_⟩
      refine lt_of_le_of_ne hsteps.epoch_le fun heq => hne ?_
      rw [hsteps.same heq.symm]
    · intro d hd
      obtain ⟨d', hd', hsteps⟩ := hevolves.documents d hd
      refine ⟨d', hd', hsteps.document, hsteps.epoch_le, fun hne => ?_⟩
      refine lt_of_le_of_ne hsteps.epoch_le fun heq => ?_
      rcases hne with hgrants | ⟨hactive, hgone⟩
      · exact hgrants (hsteps.grants heq.symm)
      · exact hgone (hsteps.active heq.symm hactive)

end Polymind.Security
