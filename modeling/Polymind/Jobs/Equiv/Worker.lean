import Polymind.Jobs.Equiv.Fencing
import Polymind.Jobs.Worker

/-!
# A worker keeps the messages of work it owns

`once_keeps_owned`: whatever the handler does, whatever the ledger raises and whatever others do in
between, `Worker.once` acknowledges its message only if `claim` returned no lease, or if at some
moment after the handler ran the step was not `RUNNING` under the owner and fence of the lease, or
the lease had expired.

The ledger tells the worker that it has lost its lease by the category of a `JobError`.  `Explains`
says what each category means for the lease, and `commit_explains`, `fail_explains` and
`settleCancel_explains` that the errors of the three operations mean it.  A lease operation that
returns has ended the attempt (`commit_ends`, `fail_ends`, `settleCancel_ends`).
-/

namespace Polymind.Jobs

variable {U D E α : Type} [DecidableEq U] {env : Env U} {db db' : Ledger U} {now : Time}
  {lease : Lease U}

/-! ### Holding a lease -/

/-- The step is `RUNNING` under the owner and fence of the lease, which has not expired. -/
def Sight.Holds (x : Sight U) (lease : Lease U) : Prop :=
  ∃ row ∈ x.db.steps, row.stepId = lease.stepId ∧ row.state = .running ∧
    row.fence = lease.fence ∧ row.leaseOwner = some lease.owner ∧ row.expired x.now = false

omit [DecidableEq U] in
/-- One look at the row of the step shows whether the lease is held. -/
theorem not_holds_of_row (hinv : (db.steps.map StepRow.stepId).Nodup) {row : StepRow U}
    (hrow : row ∈ db.steps) (hid : row.stepId = lease.stepId)
    (h : row.state = .running → row.fence = lease.fence → row.leaseOwner = some lease.owner →
      row.expired now = true) : ¬(⟨db, now⟩ : Sight U).Holds lease := by
  rintro ⟨r, hr, hrid, hrun, hfence, howner, hexp⟩
  obtain rfl := eq_of_stepId_eq hinv hr hrow (hrid.trans hid.symm)
  rw [h hrun hfence howner] at hexp
  cases hexp

/-- The step of the lease has left `RUNNING`. -/
def Ended (db : Ledger U) (lease : Lease U) : Prop :=
  ∀ row ∈ db.steps, row.stepId = lease.stepId → row.state ≠ .running

omit [DecidableEq U] in
theorem Ended.not_holds (h : Ended db lease) : ¬(⟨db, now⟩ : Sight U).Holds lease := by
  rintro ⟨r, hr, hid, hrun, -⟩
  exact h r hr hid hrun

/-! ### What the errors mean -/

/-- Cancellation of the job has been requested. -/
def CancelRequested (db : Ledger U) (jobId : U) : Prop :=
  ∃ job ∈ db.jobs, job.jobId = jobId ∧ job.cancelRequested = true

/-- What an error of a lease operation says about the lease. -/
structure Explains (db : Ledger U) (now : Time) (lease : Lease U) (e : Raised) : Prop where
  lost : e = .job .staleFence ∨ e = .job .leaseExpired ∨ e = .job .invalidTransition →
    ¬(⟨db, now⟩ : Sight U).Holds lease
  cancelled : e = .job .cancelled → CancelRequested db lease.jobId

omit [DecidableEq U] in
/-- The other errors say nothing. -/
theorem explains_of_not_mem {e : Raised} (h : e ∉ [Raised.job .staleFence, .job .leaseExpired,
    .job .invalidTransition, .job .cancelled]) : Explains db now lease e := by
  simp only [List.mem_cons, List.not_mem_nil, or_false, not_or] at h
  constructor
  · rintro (he | he | he)
    · exact absurd he h.1
    · exact absurd he h.2.1
    · exact absurd he h.2.2.1
  · intro he
    exact absurd he h.2.2.2

omit [DecidableEq U] in
/-- The error of a lost lease. -/
theorem explains_of_lost {e : Raised} (hne : e ≠ .job .cancelled)
    (h : ¬(⟨db, now⟩ : Sight U).Holds lease) : Explains db now lease e :=
  ⟨fun _ => h, fun he => absurd he hne⟩

theorem findJob_explains {scope : Scope U} {jobId : U} :
    Raises (Explains db now lease) (findJob env db scope jobId) := by
  unfold findJob
  split
  · exact .ok _
  · exact .error (explains_of_not_mem (by decide))

theorem findStep_explains {d : Ledger U} {jobId stepId : U} :
    Raises (Explains db now lease) (findStep d jobId stepId) := by
  unfold findStep
  split
  · exact .ok _
  · exact .error (explains_of_not_mem (by decide))

omit [DecidableEq U] in
theorem plus_explains {t d : Nat} : Raises (Explains db now lease) (Time.plus t d) := by
  unfold Time.plus
  split
  · exact .ok _
  · exact .error (explains_of_not_mem (by decide))

theorem checkLease_explains (hinv : Inv db) (settling : Bool) :
    Raises (Explains db now lease) (checkLease env db lease now settling) := by
  unfold checkLease
  apply Raises.bind findJob_explains
  intro job hjob
  apply Raises.bind findStep_explains
  intro row hrow
  obtain ⟨hj, hjid, -⟩ := findJob_ok hjob
  obtain ⟨hr, hid, hrj⟩ := findStep_ok hrow
  have hlost : (row.state = .running → row.fence = lease.fence →
      row.leaseOwner = some lease.owner → row.expired now = true) →
      ¬(⟨db, now⟩ : Sight U).Holds lease := not_holds_of_row hinv.stepIds hr hid
  split
  · -- another owner or fence
    rename_i hfence
    simp only [Bool.or_eq_true, decide_eq_true_eq] at hfence
    refine .error (explains_of_lost (by decide) (hlost fun _ hf ho => ?_))
    exact hfence.elim (fun hne => absurd hf hne) fun hne => absurd ho hne
  split
  · rename_i hrun
    exact .error (explains_of_lost (by decide) (hlost fun hr => absurd hr hrun))
  rename_i hrun
  rw [ne_eq, not_not] at hrun
  split
  · exact .ok _
  split
  · rename_i hcancel
    exact .error ⟨fun he => by simp at he, fun _ => ⟨job, hj, hjid, hcancel⟩⟩
  split
  · -- a running step shows that its job is not terminal
    rename_i hterm
    have hactive : row.state.active = true := by rw [hrun]; rfl
    rw [hinv.not_terminal hj hr (hrj.trans hjid.symm) hactive] at hterm
    cases hterm
  split
  · exact .error (explains_of_not_mem (by decide))
  · rename_i expires hexp
    split
    · rename_i hle
      refine .error (explains_of_lost (by decide) (hlost fun _ _ _ => ?_))
      simp only [StepRow.expired, hexp, hle, decide_true]
    · exact .ok _

theorem failure_explains {d : Ledger U} {scan : Scan U} {job : JobRow U} {row : StepRow U}
    {fault : SanitizedFailure} :
    Raises (Explains db now lease) (failure env scan d job row fault now) := by
  unfold failure
  apply Raises.bind plus_explains
  intro retryAt _
  split
  · exact .error (explains_of_not_mem (by decide))
  · apply Raises.bind plus_explains
    intro deadline _
    exact .ok _

theorem fail_explains (hinv : Inv db) {scan : Scan U} {fault : Failure} :
    Raises (Explains db now lease) (fail env scan lease fault now db) := by
  unfold fail
  apply Raises.bind (checkLease_explains hinv false)
  rintro ⟨job, row⟩ _
  dsimp only
  split
  · exact .ok _
  · exact failure_explains

omit [DecidableEq U] in
theorem allSucceeded_explains {rows : List (StepRow U)} (parents : List Str) :
    Raises (Explains db now lease) (allSucceeded rows parents) := by
  induction parents with
  | nil => exact .ok _
  | cons parent parents ih =>
    rw [allSucceeded]
    split
    · exact .error (explains_of_not_mem (by decide))
    · split
      · exact ih
      · exact .ok _

theorem activate_explains {d : Ledger U} {scan : Scan U} {job : JobRow U} :
    Raises (Explains db now lease) (activate env scan d job now) := by
  unfold activate
  apply Raises.foldlM
  intro d row _
  unfold activateRow
  split
  · exact .ok _
  · apply Raises.bind (allSucceeded_explains _)
    intro ready _
    split
    · dsimp only
      split
      · exact .error (explains_of_not_mem (by decide))
      · exact .ok _
    · exact .ok _

theorem commit_explains (hinv : Inv db) {scan : Scan U} {refs : List (ObjectRef U)} :
    Raises (Explains db now lease) (commit env scan lease refs now db) := by
  unfold commit
  split
  · exact .error (explains_of_not_mem (by decide))
  apply Raises.bind findJob_explains
  intro job hjob
  apply Raises.bind findStep_explains
  intro row hrow
  obtain ⟨hr, hid, -⟩ := findStep_ok hrow
  split
  · -- the step has succeeded already, so it is not running
    rename_i hs
    have hlost : ¬(⟨db, now⟩ : Sight U).Holds lease := by
      refine not_holds_of_row hinv.stepIds hr hid fun hrun => ?_
      rw [hs] at hrun
      cases hrun
    split
    · exact .error (explains_of_not_mem (by decide))
    split
    · exact .error (explains_of_lost (by decide) hlost)
    split
    · exact .error (explains_of_lost (by decide) hlost)
    split
    · exact .error (explains_of_not_mem (by decide))
    · exact .ok _
  · apply Raises.bind (checkLease_explains hinv false)
    rintro ⟨job', row'⟩ _
    dsimp only
    split
    · exact .error (explains_of_not_mem (by decide))
    apply Raises.bind
    · unfold Ledger.insertManifest
      dsimp only
      split
      · exact .error (explains_of_not_mem (by decide))
      · exact .ok _
    intro d _
    apply Raises.bind activate_explains
    intro d' _
    apply Raises.bind findStep_explains
    intro row'' _
    exact .ok _

/-- `settle_cancel`, once cancellation has been requested. -/
theorem settleCancel_explains (hinv : Inv db) (hreq : CancelRequested db lease.jobId)
    {scan : Scan U} : Raises (Explains db now lease) (settleCancel env scan lease now db) := by
  unfold settleCancel
  apply Raises.bind (checkLease_explains hinv true)
  rintro ⟨job, row⟩ hc
  dsimp only
  split
  · -- the job found is the one whose cancellation was requested
    rename_i hflag
    obtain ⟨hj, hjid, -⟩ := findJob_ok (checkLease_ok hc).1
    obtain ⟨job', hj', hjid', hreq⟩ := hreq
    obtain rfl := eq_of_jobId_eq hinv.jobIds hj hj' (hjid.trans hjid'.symm)
    rw [hreq] at hflag
    cases hflag
  · exact .ok _

/-! ### What the operations leave -/

omit [DecidableEq U] in
/-- A statement that writes the row of the lease so that it is not `RUNNING`, and starts no other
row, ends the attempt. -/
theorem ended_of_map {f : StepRow U → StepRow U} (hsteps : db'.steps = db.steps.map f)
    (hid : ∀ r, (f r).stepId = r.stepId)
    (hf : ∀ r ∈ db.steps, r.stepId = lease.stepId → (f r).state ≠ .running) : Ended db' lease := by
  intro r hr
  rw [hsteps] at hr
  obtain ⟨r₀, hr₀, rfl⟩ := List.mem_map.mp hr
  rw [hid]
  exact hf r₀ hr₀

theorem failure_ends {scan : Scan U} {job : JobRow U} {row : StepRow U} {fault : SanitizedFailure}
    (hinv : Inv db) (hid : row.stepId = lease.stepId)
    (h : failure env scan db job row fault now = .ok db') : Ended db' lease := by
  rcases failure_ok h with ⟨retryAt, -, -, rfl⟩ | ⟨category, rfl⟩
  · refine ended_of_map (f := retryRow row retryAt fault.category) rfl (fun r => ?_)
      fun r _ hr => ?_
    · unfold retryRow
      split <;> rfl
    · unfold retryRow
      rw [if_pos (hr.trans hid.symm)]
      exact nofun
  · rw [terminalFailure_eq]
    · refine ended_of_map (f := failRow now row category) rfl (fun r => ?_) fun r _ hr => ?_
      · unfold failRow
        split
        · rfl
        · split <;> rfl
      · unfold failRow
        rw [if_pos (hr.trans hid.symm)]
        exact nofun
    · exact hinv.stepIds

theorem cancelStep_ends {row : StepRow U} (hid : row.stepId = lease.stepId) :
    Ended (cancelStep now db row) lease := by
  rw [cancelStep_eq]
  refine ended_of_map (f := cancelRow now [row.stepId]) rfl (fun r => ?_) fun r _ hr => ?_
  · unfold cancelRow
    split <;> rfl
  · unfold cancelRow
    rw [if_pos (by rw [hr, hid]; exact List.mem_singleton_self _)]
    exact nofun

theorem fail_ends {scan : Scan U} {fault : Failure} (hinv : Inv db)
    (h : fail env scan lease fault now db = .ok db') : Ended db' lease := by
  unfold fail at h
  simp only [bind_eq_ok] at h
  obtain ⟨⟨job, row⟩, hc, h⟩ := h
  obtain ⟨-, hid, -⟩ := findStep_ok (checkLease_ok hc).2.1
  simp only at h
  split at h
  · obtain rfl := Except.ok.inj h
    exact cancelStep_ends hid
  · exact failure_ends hinv hid h

theorem settleCancel_ends {scan : Scan U} (h : settleCancel env scan lease now db = .ok db') :
    Ended db' lease := by
  unfold settleCancel at h
  simp only [bind_eq_ok] at h
  obtain ⟨⟨job, row⟩, hc, h⟩ := h
  obtain ⟨-, hid, -⟩ := findStep_ok (checkLease_ok hc).2.1
  simp only [ite_error_eq_ok, Except.ok.injEq] at h
  obtain ⟨-, rfl⟩ := h
  exact cancelStep_ends hid

theorem commit_ends {scan : Scan U} {refs : List (ObjectRef U)} {row : StepRow U} (hinv : Inv db)
    (h : commit env scan lease refs now db = .ok (row, db')) : Ended db' lease := by
  rcases commit_ok h with ⟨rfl, hrow, hs, -⟩ | ⟨-, job, row₀, db₁, -, -, -, hact, rfl⟩
  · -- the step had succeeded
    obtain ⟨hr, hid, -⟩ := findStep_ok hrow
    intro r hr' hid'
    rw [eq_of_stepId_eq hinv.stepIds hr' hr (hid'.trans hid.symm), hs]
    exact nofun
  · obtain ⟨g, outbox, seq, rfl, hg⟩ :=
      activate_spec (by exact nodup_commitRow hinv lease.stepId) hact
    -- the row is `SUCCEEDED` before successors are activated, and activation starts no row
    intro r hr hid
    obtain ⟨r₁, hr₁, rfl⟩ := List.mem_map.mp hr
    obtain ⟨r₀, -, rfl⟩ := List.mem_map.mp hr₁
    rcases hg _ hr₁ with he | ⟨-, -, key, inputs, he⟩
    · rw [he] at hid ⊢
      unfold commitRow at hid ⊢
      split at hid
      · rename_i h₀
        rw [if_pos h₀]
        exact nofun
      · rename_i h₀
        exact absurd hid h₀
    · rw [he]
      exact nofun

/-! ### One ledger call of the worker -/

/-- A call that returns has not been disturbed. -/
theorem perform_ok {m : Moment U} {body : Scan U → Time → Ledger U → Except Raised (α × Ledger U)}
    {t t' : Trail U} {a : α} (h : m.perform env body t = (.ok a, t')) :
    body m.scan m.now (t.db.exec env m.before) = .ok (a, t'.db) ∧ ⟨t'.db, m.now⟩ ∈ t'.seen := by
  unfold Moment.perform disturbed transaction at h
  dsimp only at h
  cases hd : m.disturbance with
  | some d =>
    rw [hd] at h
    exact absurd (congrArg Prod.fst h) nofun
  | none =>
    rw [hd] at h
    cases hb : body m.scan m.now (t.db.exec env m.before) with
    | error e =>
      rw [hb] at h
      exact absurd (congrArg Prod.fst h) nofun
    | ok r =>
      rw [hb] at h
      obtain ⟨h₁, rfl⟩ := Prod.mk.inj h
      obtain rfl := Except.ok.inj h₁
      exact ⟨rfl, List.mem_append_right _ (List.mem_cons_of_mem _ (List.mem_cons_self ..))⟩

/-- A `JobError` comes from the body, which then changed nothing, or says that the ledger cannot be
reached. -/
theorem perform_error {m : Moment U}
    {body : Scan U → Time → Ledger U → Except Raised (α × Ledger U)} {t t' : Trail U}
    {category : Category} (h : m.perform env body t = (.error (.jobError category), t')) :
    (category = .invalidConfiguration ∨ category = .ledgerError) ∨
    (body m.scan m.now (t.db.exec env m.before) = .error (.job category) ∧
      t'.db = t.db.exec env m.before ∧ ⟨t'.db, m.now⟩ ∈ t'.seen) := by
  unfold Moment.perform disturbed transaction at h
  dsimp only at h
  cases hd : m.disturbance with
  | some d =>
    left
    rw [hd] at h
    have hs : d.signal = .jobError category := Except.error.inj (congrArg Prod.fst h)
    cases d with
    | misconfigured => exact Or.inl (Signal.jobError.inj hs).symm
    | unavailable => exact Or.inr (Signal.jobError.inj hs).symm
    | interrupted => cases hs
  | none =>
    right
    rw [hd] at h
    cases hb : body m.scan m.now (t.db.exec env m.before) with
    | ok r =>
      rw [hb] at h
      exact absurd (congrArg Prod.fst h) nofun
    | error e =>
      rw [hb] at h
      obtain ⟨h₁, rfl⟩ := Prod.mk.inj h
      have hs : e.signal = .jobError category := Except.error.inj h₁
      refine ⟨?_, rfl, List.mem_append_right _ (List.mem_cons_of_mem _ (List.mem_cons_self ..))⟩
      cases e with
      | job c => rw [Signal.jobError.inj hs]
      | overflowError => cases hs
      | keyError => cases hs

theorem CancelRequested.exec (hinv : Inv db) {jobId : U} (h : CancelRequested db jobId)
    (calls : List (Call U)) : CancelRequested (db.exec env calls) jobId := by
  obtain ⟨job, hj, hid, hreq⟩ := h
  have hevolves : Evolves db (db.exec env calls) := evolves_exec calls hinv
  obtain ⟨job', hj', hev⟩ := hevolves.jobs job hj
  exact ⟨job', hj', hev.jobId.trans hid, hev.cancel hreq⟩

/-! ### The worker -/

/-- The worker has seen a moment at which it did not hold the lease. -/
def Trail.Lost (t : Trail U) (lease : Lease U) : Prop := ∃ x ∈ t.seen, ¬x.Holds lease

/-- `_settle_or_raise` swallows an error only when the lease is lost: at once, or after
`settle_cancel` has been tried. -/
theorem settleOrRaise_lost {m : Moment U} {error : Category} {t t' : Trail U}
    (hlost : error = .staleFence ∨ error = .leaseExpired ∨ error = .invalidTransition →
      t.Lost lease)
    (hcancel : error = .cancelled → Inv t.db ∧ CancelRequested t.db lease.jobId)
    (h : settleOrRaise env m lease error t = (.ok (), t')) : t'.Lost lease := by
  unfold settleOrRaise at h
  split at h
  · rename_i herror
    obtain ⟨hinv, hreq⟩ := hcancel herror
    have hinv' : Inv (t.db.exec env m.before) := inv_exec m.before hinv
    have hreq' : CancelRequested (t.db.exec env m.before) lease.jobId := hreq.exec hinv m.before
    split at h
    · -- the step has been cancelled
      rename_i hp
      obtain ⟨hbody, hseen⟩ := perform_ok hp
      rw [map_eq_ok] at hbody
      obtain ⟨d, hd, he⟩ := hbody
      obtain ⟨-, rfl⟩ := Prod.mk.inj h
      obtain ⟨-, rfl⟩ := Prod.mk.inj he
      exact ⟨_, hseen, (settleCancel_ends hd).not_holds⟩
    · rename_i settling t₁ hp
      split at h
      · rename_i hswallowed
        obtain ⟨-, rfl⟩ := Prod.mk.inj h
        rcases perform_error hp with hc | ⟨hbody, hdb, hseen⟩
        · rcases hswallowed with rfl | rfl <;> rcases hc with hc | hc <;> cases hc
        · have hexp := (settleCancel_explains hinv' hreq').map _ hbody
          refine ⟨_, hseen, ?_⟩
          rw [hdb]
          apply hexp.lost
          rcases hswallowed with rfl | rfl
          · exact Or.inl rfl
          · exact Or.inr (Or.inr rfl)
      · exact absurd (congrArg Prod.fst h) nofun
    · exact absurd (congrArg Prod.fst h) nofun
  · split at h
    · rename_i hswallowed
      obtain ⟨-, rfl⟩ := Prod.mk.inj h
      exact hlost hswallowed
    · exact absurd (congrArg Prod.fst h) nofun

/-- A report that is not raised leaves a lease that is lost. -/
theorem orSettle_lost {m settle : Moment U}
    {body : Scan U → Time → Ledger U → Except Raised (α × Ledger U)} {t t' : Trail U}
    (hinv : Inv t.db)
    (herrors : ∀ db, Inv db → Raises (Explains db m.now lease) (body m.scan m.now db))
    (hends : ∀ db, Inv db → ∀ a db', body m.scan m.now db = .ok (a, db') → Ended db' lease)
    (h : orSettle env settle lease (m.perform env body t) = (.ok (), t')) : t'.Lost lease := by
  have hinv' : Inv (t.db.exec env m.before) := inv_exec m.before hinv
  unfold orSettle at h
  split at h
  · rename_i hp
    obtain ⟨hbody, hseen⟩ := perform_ok hp
    obtain ⟨-, rfl⟩ := Prod.mk.inj h
    exact ⟨_, hseen, (hends _ hinv' _ _ hbody).not_holds⟩
  · rename_i error t₁ hp
    rcases perform_error hp with hc | ⟨hbody, hdb, hseen⟩
    · refine settleOrRaise_lost (fun hl => ?_) (fun hl => ?_) h
      · rcases hl with rfl | rfl | rfl <;> rcases hc with hc | hc <;> cases hc
      · rcases hc with rfl | rfl <;> cases hl
    · have hexp := herrors _ hinv' _ hbody
      refine settleOrRaise_lost (fun hl => ⟨_, hseen, ?_⟩) (fun hl => ?_) h
      · rw [hdb]
        apply hexp.lost
        rcases hl with rfl | rfl | rfl
        · exact Or.inl rfl
        · exact Or.inr (Or.inl rfl)
        · exact Or.inr (Or.inr rfl)
      · rw [hdb]
        exact ⟨hinv', hexp.cancelled (by rw [hl])⟩
  · exact absurd (congrArg Prod.fst h) nofun

variable {w : Worker U D E} {s : Script U D}

theorem report_lost {t t' : Trail U} {result : Except (Thrown E) (List (ObjectRef U))}
    (hinv : Inv t.db) (h : w.report env s lease t result = (.ok (), t')) : t'.Lost lease := by
  unfold Worker.report at h
  split at h
  · exact absurd (congrArg Prod.fst h) nofun
  · refine orSettle_lost hinv (fun db hdb => (fail_explains hdb).map) (fun db hdb a db' hb => ?_) h
    rw [map_eq_ok] at hb
    obtain ⟨d, hd, he⟩ := hb
    obtain ⟨-, rfl⟩ := Prod.mk.inj he
    exact fail_ends hdb hd
  · exact orSettle_lost hinv (fun db hdb => commit_explains hdb)
      (fun db hdb row db' hb => commit_ends hdb hb) h

/-- Once a lease has been claimed, `once` goes on to the acknowledgement only if it is lost. -/
theorem work_lost {message : Dispatch U} {t t' : Trail U} (hinv : Inv t.db)
    (h : w.work env s message lease t = (.ok (), t')) : t'.Lost lease := by
  unfold Worker.work at h
  split at h
  · exact absurd (congrArg Prod.fst h) nofun
  · rename_i job t₁ hjob
    obtain ⟨hbody, -⟩ := perform_ok hjob
    unfold getJob at hbody
    obtain ⟨j, -, he⟩ := map_eq_ok.mp hbody
    have hinv₁ : Inv t₁.db := by
      rw [← (Prod.mk.inj he).2]
      exact inv_exec _ hinv
    split at h
    · exact absurd (congrArg Prod.fst h) nofun
    · rename_i steps t₂ hsteps
      obtain ⟨hbody, -⟩ := perform_ok hsteps
      unfold getSteps at hbody
      obtain ⟨j, -, he⟩ := map_eq_ok.mp hbody
      have hinv₂ : Inv t₂.db := by
        rw [← (Prod.mk.inj he).2]
        exact inv_exec _ hinv₁
      split at h
      · exact absurd (congrArg Prod.fst h) nofun
      · exact report_lost (t := t₂.fresh) hinv₂ h

/-- From every reachable ledger, whatever the handler, the dispatcher and the classifier do, whatever
each ledger call raises and whatever others do in between: `once` acknowledges a message only if it
is the one it received and `claim` returned no lease, or at some moment after the handler ran the
step was not `RUNNING` under the lease or the lease had expired.  If it acknowledges nothing, it
leaves the dispatcher alone and raises, unless there was no message. -/
theorem once_keeps_owned (env : Env U) (calls : List (Call U)) (w : Worker U D E) (s : Script U D)
    (d : D) :
    let run := w.once env s d (Ledger.empty.exec env calls)
    (∀ message, run.acknowledged = some message →
      (w.dispatcher.receive d).1 = .ok (some message) ∧
      (run.claimed = some none ∨ ∃ lease, run.claimed = some (some lease) ∧
        ∃ x ∈ run.trail.seen, ¬x.Holds lease)) ∧
    (run.acknowledged = none →
      run.dispatcher = s.meanwhile (w.dispatcher.receive d).2 ∧
      (run.outcome = .error () ∨ (w.dispatcher.receive d).1 = .ok none)) := by
  have hinv : Inv (Ledger.empty.exec env calls) := inv_reachable calls
  dsimp only
  unfold Worker.once
  split
  · rename_i hr
    rw [hr]
    exact ⟨nofun, fun _ => ⟨rfl, Or.inl rfl⟩⟩
  · rename_i hr
    rw [hr]
    exact ⟨nofun, fun _ => ⟨rfl, Or.inr rfl⟩⟩
  · rename_i message d' hr
    rw [hr]
    split
    · exact ⟨nofun, fun _ => ⟨rfl, Or.inl rfl⟩⟩
    · -- `claim` returned no lease
      refine ⟨fun m hm => ?_, nofun⟩
      obtain rfl := Option.some.inj hm
      exact ⟨rfl, Or.inl rfl⟩
    · rename_i lease t hclaim
      obtain ⟨hbody, -⟩ := perform_ok hclaim
      have hinv' : Inv ((Ledger.empty.exec env calls).exec env s.claim.before) :=
        inv_exec s.claim.before hinv
      have hinv₁ : Inv t.db := inv_chain hinv' (claim_ok hinv' hbody).1
      split
      · exact ⟨nofun, fun _ => ⟨rfl, Or.inl rfl⟩⟩
      · rename_i t' hwork
        refine ⟨fun m hm => ?_, nofun⟩
        obtain rfl := Option.some.inj hm
        exact ⟨rfl, Or.inr ⟨lease, rfl, work_lost hinv₁ hwork⟩⟩

/-- Behind a `LocalDispatcher`, a message that is not acknowledged and that nobody else has taken
out stays in the queue. -/
theorem message_stays {w : Worker U (List (Dispatch U)) E} {s : Script U (List (Dispatch U))}
    (hw : w.dispatcher = localDispatcher) {messages : List (Dispatch U)} {message : Dispatch U}
    (hm : message ∈ s.meanwhile messages) (h : (w.once env s messages db).acknowledged = none) :
    message ∈ (w.once env s messages db).dispatcher := by
  have hr : w.dispatcher.receive messages = (.ok messages.head?, messages) := by rw [hw]; rfl
  unfold Worker.once at h ⊢
  rw [hr] at h ⊢
  cases hhead : messages.head? with
  | none => exact hm
  | some first =>
    rw [hhead] at h
    dsimp only at h ⊢
    split at h
    · exact hm
    · cases h
    · split at h
      · exact hm
      · cases h

end Polymind.Jobs
