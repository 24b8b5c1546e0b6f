import Polymind.Jobs.Equiv.Evolution
import Polymind.Lib.Runs

/-!
# Operations are chains of transitions

`step_chain`: one call, whatever it returns or raises, changes the database by a chain of
transitions.  `inv_exec` and `exec_relates` carry what the transitions keep through every sequence
of calls.
-/

namespace Polymind.Jobs

open Relation

variable {U : Type} [DecidableEq U] {env : Env U} {db db' : Ledger U} {now : Time}

/-! ### Failures -/

theorem plus_eq_ok {t d s : Time} (h : Time.plus t d = .ok s) : s = t + d := by
  unfold Time.plus at h
  split at h
  · exact (Except.ok.inj h).symm
  · cases h

theorem updateAttempts_fence (db : Ledger U) (row : StepRow U)
    (F : AttemptRow U → AttemptRow U) :
    db.updateAttempts (fun a => a.stepId = row.stepId && a.fence = row.fence) F
      = { db with attempts := db.attempts.map fun a =>
            if a.stepId = row.stepId ∧ a.fence = row.fence then F a else a } := by
  unfold Ledger.updateAttempts
  simp only [Bool.and_eq_true, decide_eq_true_eq]

/-- `_failure`: another attempt is scheduled, or the job fails. -/
theorem failure_ok {scan : Scan U} {job : JobRow U} {row : StepRow U} {fault : SanitizedFailure}
    (h : failure env scan db job row fault now = .ok db') :
    (∃ retryAt, now + fault.retryAfter.getD 0 ≤ retryAt ∧
      row.attemptCount < job.request.profile.retry.maxAttempts ∧
      db' = refresh scan { db with
        attempts := db.attempts.map (closeAttempt now row fault .retryWait (some retryAt))
        steps := db.steps.map (retryRow row retryAt fault.category)
        outbox := db.outbox ++ [⟨db.outboxSeq + 1, row.stepId, now, retryAt, none⟩]
        outboxSeq := db.outboxSeq + 1 } row.jobId now) ∨
    ∃ category, db' = refresh scan (terminalFailure scan { db with
      attempts := db.attempts.map (closeAttempt now row fault .failed none) } row category
        fault.classification now) row.jobId now := by
  unfold failure at h
  rw [bind_eq_ok] at h
  obtain ⟨retryAt, hretry, h⟩ := h
  have hretryAt := plus_eq_ok hretry
  split at h
  · cases h
  · rw [bind_eq_ok] at h
    obtain ⟨deadline, -, h⟩ := h
    generalize hr : (decide (fault.classification = .retryable)
      && decide (row.attemptCount < job.request.profile.retry.maxAttempts)
      && decide (retryAt < deadline)) = retry at h
    simp only [Except.ok.injEq] at h
    rw [← h, updateAttempts_fence]
    cases retry with
    | true =>
      -- another attempt is allowed
      simp only [Bool.and_eq_true, decide_eq_true_eq] at hr
      refine Or.inl ⟨retryAt, ?_, hr.1.2, rfl⟩
      rw [hretryAt]
      exact Nat.add_le_add_left (Nat.le_max_right _ _) _
    | false => exact Or.inr ⟨_, rfl⟩

/-- `_failure` of a running step of a live job is one transition. -/
theorem failure_transition {scan : Scan U} {job : JobRow U} {row : StepRow U}
    {fault : SanitizedFailure} (hl : OnLive db job row) (hrun : row.state = .running)
    (h : failure env scan db job row fault now = .ok db') : Transition env now db db' := by
  rcases failure_ok h with ⟨retryAt, hdelay, hattempts, rfl⟩ | ⟨category, rfl⟩
  · exact .retried scan job row fault retryAt hl hrun hdelay hattempts
  · exact .failed scan job row fault category hl hrun

/-- What an expired lease leads to. -/
theorem settleExpired_chain {scan : Scan U} {job : JobRow U} {row : StepRow U}
    (hl : OnLive db job row) (h : settleExpired env scan db job row now = .ok db') :
    ReflTransGen (Transition env now) db db' := by
  unfold settleExpired at h
  split at h
  · rename_i hexp
    simp only [Bool.and_eq_true, decide_eq_true_eq] at hexp
    exact .single (failure_transition hl hexp.1 h)
  · cases h
    exact .refl

/-! ### Claims -/

/-- The database after `owner` has been given a step. -/
def startState (scan : Scan U) (now : Time) (row : StepRow U) (owner : Str) (expires : Time)
    (db : Ledger U) : Ledger U :=
  refresh scan { db with
    steps := db.steps.map (startRow now row owner expires)
    attempts := db.attempts ++ [startAttempt now row owner] } row.jobId now

theorem insertAttempt_ok {row : AttemptRow U} (h : db.insertAttempt row = .ok db') :
    db' = { db with attempts := db.attempts ++ [row] } ∧
    ∀ a ∈ db.attempts, a.stepId = row.stepId → a.number ≠ row.number ∧ a.fence ≠ row.fence := by
  unfold Ledger.insertAttempt at h
  rw [ite_error_eq_ok] at h
  obtain ⟨hany, h⟩ := h
  refine ⟨(Except.ok.inj h).symm, fun a ha hid => ?_⟩
  simp only [List.any_eq_true, Bool.and_eq_true, Bool.or_eq_true, decide_eq_true_eq, not_exists,
    not_and, not_or] at hany
  exact hany a ha hid

/-- A lease `claim` returns is the next fence of a waiting step, with its attempt. -/
theorem claimReady_ok {scan : Scan U} {job job' : JobRow U} {row : StepRow U} {scope : Scope U}
    {owner : Str} {hOwner : isToken owner = true} {lease : Option (Lease U)}
    (hl : OnLive db job' row) (hrequest : job'.request = job.request)
    (hwait : row.state = .ready ∨ row.state = .retryWait) (hdue : row.notBefore ≤ now)
    (h : claimReady env scan db job row scope owner hOwner now = .ok (lease, db')) :
    Transition env now db db' ∧ ∀ l ∈ lease, l.jobId = row.jobId ∧ l.stepId = row.stepId ∧
      l.owner = owner ∧ l.fence = row.fence + 1 ∧
      ∃ expires, db' = startState scan now row owner expires db := by
  unfold claimReady at h
  rw [bind_eq_ok] at h
  obtain ⟨spent, hspent, h⟩ := h
  cases spent with
  | true =>
    simp only [if_true, Except.ok.injEq, Prod.mk.injEq] at h
    obtain ⟨rfl, rfl⟩ := h
    refine ⟨.spent scan job' row hl hwait, ?_⟩
    simp
  | false =>
    simp only [Bool.false_eq_true, if_false, bind_eq_ok, Except.ok.injEq, Prod.mk.injEq] at h
    obtain ⟨expires, -, d, hd, rfl, rfl⟩ := h
    obtain ⟨rfl, hfresh⟩ := insertAttempt_ok hd
    refine ⟨.started scan job' row owner expires hl hwait hdue (hrequest ▸ hspent) hfresh, ?_⟩
    rintro l hm
    obtain rfl := Option.some.inj hm
    exact ⟨rfl, rfl, rfl, rfl, expires, rfl⟩

theorem inv_chain (h : Inv db) (hc : ReflTransGen (Transition env now) db db') : Inv db' :=
  run_invariant Inv (fun _ _ => inv_transition) hc h

theorem evolves_chain (h : Inv db) (hc : ReflTransGen (Transition env now) db db') :
    Evolves db db' :=
  run_relates Inv Evolves (fun _ _ => inv_transition) Evolves.refl (fun _ _ _ => Evolves.trans)
    (fun _ _ => evolves_transition) hc h

/-- A step that still waits shows that its job still accepts work. -/
theorem onLive_of_waiting (h : Inv db') {j' : JobRow U} {row : StepRow U} (hj : j' ∈ db'.jobs)
    (hrow : row ∈ db'.steps) (hid : row.jobId = j'.jobId) (hw : row.state.waiting = true) :
    OnLive db' j' row := by
  have hact : row.state.active = true := by rw [StepState.active, hw, Bool.true_or]
  refine ⟨hj, hrow, hid, ?_, h.not_terminal hj hrow hid hact⟩
  by_contra hc
  have hshape := (h.jobs j' hj).shape
  rw [(Bool.not_eq_false _).mp hc] at hshape
  rcases hshape.1 row (mem_stepsOf.mpr ⟨hrow, hid⟩) with hs | hs | hs <;> rw [hs] at hw <;> cases hw

/-- `claim`: a chain of transitions, the last of which issues the lease if one is returned. -/
theorem claim_ok (hinv : Inv db) {scan : Scan U} {scope : Scope U} {jobId stepId : U} {owner : Str}
    {lease : Option (Lease U)}
    (h : claim env scan scope jobId stepId owner now db = .ok (lease, db')) :
    ReflTransGen (Transition env now) db db' ∧ ∀ l ∈ lease, l.stepId = stepId ∧ l.owner = owner ∧
      ∃ db₁ row expires, ReflTransGen (Transition env now) db db₁ ∧ row ∈ db₁.steps ∧
        row.stepId = stepId ∧ row.jobId = l.jobId ∧ l.fence = row.fence + 1 ∧
        db' = startState scan now row owner expires db₁ := by
  unfold claim at h
  split at h
  · rename_i hOwner
    simp only [bind_eq_ok] at h
    obtain ⟨job, hjob, row, hrow, h⟩ := h
    split at h
    · cases h
      exact ⟨.refl, by simp⟩
    · rename_i hlive
      simp only [Bool.or_eq_true, not_or, Bool.not_eq_true] at hlive
      obtain ⟨hj, hjid, -⟩ := findJob_ok hjob
      obtain ⟨hr, hsid, hrj⟩ := findStep_ok hrow
      have hl : OnLive db job row := ⟨hj, hr, hrj.trans hjid.symm, hlive.1, hlive.2⟩
      rw [bind_eq_ok] at h
      obtain ⟨db₁, hsettle, h⟩ := h
      have hchain := settleExpired_chain hl hsettle
      have hinv₁ := inv_chain hinv hchain
      rw [bind_eq_ok] at h
      obtain ⟨row₁, hrow₁, h⟩ := h
      split at h
      · cases h
        exact ⟨hchain, by simp⟩
      · rename_i hready
        simp only [Bool.or_eq_true, Bool.and_eq_true, decide_eq_true_eq, not_or, not_and,
          not_not, not_lt] at hready
        obtain ⟨hr₁, hsid₁, hrj₁⟩ := findStep_ok hrow₁
        -- the job row may have been refreshed meanwhile, with the same request
        obtain ⟨job₁, hj₁, hev⟩ := (evolves_chain hinv hchain).jobs job hj
        have hwait : row₁.state = .ready ∨ row₁.state = .retryWait := by
          by_cases hs : row₁.state = .ready
          · exact Or.inl hs
          · exact Or.inr (hready.1 hs)
        have hl₁ : OnLive db₁ job₁ row₁ := by
          refine onLive_of_waiting hinv₁ hj₁ hr₁ ?_ ?_
          · rw [hrj₁, hev.jobId, hjid]
          · rcases hwait with hs | hs <;> rw [hs] <;> rfl
        obtain ⟨ht, hlease⟩ := claimReady_ok hl₁ hev.request hwait hready.2 h
        refine ⟨hchain.tail ht, fun l hm => ?_⟩
        obtain ⟨h1, h2, h3, h4, expires, h5⟩ := hlease l hm
        exact ⟨h2.trans hsid₁, h3, db₁, row₁, expires, hchain, hr₁, hsid₁, h1.symm, h4, h5⟩
  · cases h

/-! ### The other lease operations -/

theorem renew_ok {lease : Lease U} (h : renew env lease now db = .ok db') :
    Transition env now db db' := by
  unfold renew at h
  simp only [bind_eq_ok, Except.ok.injEq] at h
  obtain ⟨⟨job, row⟩, hc, expires, -, rfl⟩ := h
  exact .renewed lease job row expires hc

theorem registerObject_ok {lease : Lease U} {ref : ObjectRef U}
    (h : registerObject env lease ref now db = .ok db') : Transition env now db db' := by
  unfold registerObject at h
  simp only [ite_error_eq_ok, bind_eq_ok] at h
  obtain ⟨-, -, ⟨job, row⟩, hc, h⟩ := h
  split at h
  · rw [ite_error_eq_ok] at h
    cases h.2
    exact .registered lease job row ref hc
  · cases h
    exact .registered lease job row ref hc

/-- `commit` returns either because the step has been committed by this lease with this manifest,
or after committing it. -/
theorem commit_ok {scan : Scan U} {lease : Lease U} {refs : List (ObjectRef U)} {row : StepRow U}
    (h : commit env scan lease refs now db = .ok (row, db')) :
    (db' = db ∧ findStep db lease.jobId lease.stepId = .ok row ∧ row.state = .succeeded ∧
      (∃ m ∈ db.manifests, m.stepId = lease.stepId ∧ m.fence = lease.fence ∧ m.manifest = refs) ∧
      ∃ a ∈ db.attempts, a.stepId = lease.stepId ∧ a.fence = lease.fence ∧ a.worker = lease.owner) ∨
    (Transition env now db db' ∧ ∃ job row₀ db₁,
      checkLease env db lease now false = .ok (job, row₀) ∧
      intentsHold db lease.stepId refs = true ∧
      lease.stepId ∉ db.manifests.map ManifestRow.stepId ∧
      activate env scan (recordCommit now lease refs db) job now = .ok db₁ ∧
      db' = refresh scan db₁ lease.jobId now) := by
  unfold commit at h
  simp only [ite_error_eq_ok, bind_eq_ok] at h
  obtain ⟨-, job, hjob, row₀, hrow₀, h⟩ := h
  split at h
  · -- the step has succeeded already
    rename_i hs
    left
    split at h
    · cases h
    · rename_i m hm
      split at h
      · cases h
      · rename_i a ha
        rw [ite_error_eq_ok, ite_error_eq_ok] at h
        obtain ⟨hfence, hman, h⟩ := h
        simp only [Except.ok.injEq, Prod.mk.injEq] at h
        obtain ⟨rfl, rfl⟩ := h
        simp only [Bool.or_eq_true, decide_eq_true_eq, not_or, not_not] at hfence hman
        have hmid := List.find?_some hm
        have haid := List.find?_some ha
        simp only [Bool.and_eq_true, decide_eq_true_eq] at hmid haid
        exact ⟨rfl, hrow₀, hs, ⟨m, List.mem_of_find?_eq_some hm, hmid, hfence.1, hman⟩,
          a, List.mem_of_find?_eq_some ha, haid.1, haid.2, hfence.2⟩
  · right
    rw [bind_eq_ok] at h
    obtain ⟨⟨job', row'⟩, hc, h⟩ := h
    obtain rfl : job' = job := Except.ok.inj ((checkLease_ok hc).1.symm.trans hjob)
    rw [ite_error_eq_ok] at h
    obtain ⟨hintents, h⟩ := h
    simp only [bind_eq_ok, Except.ok.injEq, Prod.mk.injEq] at h
    obtain ⟨d, hd, db₁, hact, row₂, -, -, rfl⟩ := h
    obtain ⟨rfl, hnew⟩ := insertManifest_ok hd
    have hact' : activate env scan (recordCommit now lease refs db) job' now = .ok db₁ := by
      rw [← hact]
      unfold recordCommit commitRow commitAttempt Ledger.updateStep Ledger.updateAttempts
        ManifestRow.objects
      simp only [Bool.and_eq_true, decide_eq_true_eq]
    have hintents : intentsHold db lease.stepId refs = true := by simpa using hintents
    exact ⟨.committed scan lease refs job' row' db₁ hc hintents hnew hact',
      job', row', db₁, hc, hintents, hnew, hact', rfl⟩

theorem fail_ok {scan : Scan U} {lease : Lease U} {fault : Failure}
    (h : fail env scan lease fault now db = .ok db') : Transition env now db db' := by
  unfold fail at h
  simp only [bind_eq_ok] at h
  obtain ⟨⟨job, row⟩, hc, h⟩ := h
  obtain ⟨hl, hrun, -, -⟩ := onLive_of_checkLease hc
  simp only at h
  split at h
  · cases h
    exact .abandoned scan job row hl hrun
  · exact failure_transition hl hrun h

theorem cancel_ok {scan : Scan U} {scope : Scope U} {jobId : U} {job : JobRow U}
    (h : cancel env scan scope jobId now db = .ok (job, db')) :
    ReflTransGen (Transition env now) db db' := by
  unfold cancel at h
  simp only [bind_eq_ok] at h
  obtain ⟨job₀, hjob, h⟩ := h
  obtain ⟨hj, hjid, -⟩ := findJob_ok hjob
  split at h
  · cases h
    exact .refl
  · rename_i hterm
    simp only [bind_eq_ok, Except.ok.injEq, Prod.mk.injEq] at h
    obtain ⟨job₁, -, -, rfl⟩ := h
    rw [← hjid]
    exact .single (.cancelled scan job₀ hj (by simpa using hterm))

theorem settleCancel_ok {scan : Scan U} {lease : Lease U}
    (h : settleCancel env scan lease now db = .ok db') : Transition env now db db' := by
  unfold settleCancel at h
  simp only [bind_eq_ok] at h
  obtain ⟨⟨job, row⟩, hc, h⟩ := h
  obtain ⟨hjob, hrow, -, -, hrun, -⟩ := checkLease_ok hc
  obtain ⟨hj, hjid, -⟩ := findJob_ok hjob
  obtain ⟨hr, -, hrj⟩ := findStep_ok hrow
  simp only [ite_error_eq_ok, Except.ok.injEq] at h
  obtain ⟨hflag, rfl⟩ := h
  rw [← hrj]
  exact .settled scan job row hj hr (hrj.trans hjid.symm) hrun (Or.inl (by simpa using hflag))

theorem markDelivered_ok {message : Dispatch U} (h : markDelivered env message now db = .ok db') :
    Transition env now db db' := by
  unfold markDelivered at h
  simp only [bind_eq_ok] at h
  obtain ⟨job, -, row, -, h⟩ := h
  split at h
  · obtain rfl := Except.ok.inj h
    have hmap : (db.outbox.map fun o => if (decide (o.dispatchId = message.dispatchId)
          && decide (o.stepId = message.stepId)) = true then
          { o with deliveredAt := some (o.deliveredAt.getD now) } else o)
        = db.outbox.map (deliverRow now message.dispatchId message.stepId) := by
      refine List.map_congr_left fun o _ => ?_
      simp only [deliverRow, Bool.and_eq_true, decide_eq_true_eq]
    rw [hmap]
    exact .delivered message.dispatchId message.stepId
  · cases h

/-! ### Reconciliation -/

theorem reconcileExpired_ok {scan : Scan U} {row : StepRow U} {n m : Nat}
    (h : reconcileExpired env scan now (db, n) row = .ok (db', m)) :
    ReflTransGen (Transition env now) db db' := by
  unfold reconcileExpired at h
  simp only [bind_eq_ok] at h
  obtain ⟨row₁, hrow, h⟩ := h
  obtain ⟨hr, -, -⟩ := findStep_ok hrow
  split at h
  · cases h
    exact .refl
  · rename_i hrun
    rw [not_not] at hrun
    split at h
    · cases h
    · rename_i job hjob
      have hj := List.mem_of_find?_eq_some hjob
      have hid := List.find?_some hjob
      rw [decide_eq_true_eq] at hid
      split at h
      · rename_i hdone
        rw [Bool.or_eq_true] at hdone
        cases h
        exact .single (.settled scan job row₁ hj hr hid.symm hrun hdone)
      · rename_i hlive
        simp only [Bool.or_eq_true, not_or, Bool.not_eq_true] at hlive
        rw [bind_eq_ok] at h
        obtain ⟨d, hd, h⟩ := h
        cases h
        exact .single (failure_transition ⟨hj, hr, hid.symm, hlive.1, hlive.2⟩ hrun hd)

/-- Under the invariant no active step belongs to a terminal job. -/
theorem terminalRows_eq_nil (h : Inv db) (scan : Scan U) (limit : Nat) :
    terminalRows scan db limit = [] := by
  have hnone : db.steps.filter (fun r => r.state.active &&
      db.jobs.any fun j => j.jobId = r.jobId && j.state.terminal) = [] := by
    rw [List.filter_eq_nil_iff]
    intro r hr hc
    simp only [Bool.and_eq_true, List.any_eq_true, decide_eq_true_eq] at hc
    obtain ⟨ha, j, hj, hid, ht⟩ := hc
    rw [h.not_terminal hj hr hid.symm ha] at ht
    cases ht
  unfold terminalRows
  rw [hnone, (scan.perm []).eq_nil, List.take_nil]

theorem foldl_enqueue_chain (rows : List (StepRow U)) (db : Ledger U)
    (hrows : ∀ r ∈ rows, r ∈ db.steps) : ReflTransGen (Transition env now) db
      (rows.foldl (fun db row => db.enqueue row.stepId now now) db) := by
  induction rows generalizing db with
  | nil => exact .refl
  | cons row rows ih =>
    obtain ⟨hrow, hrows⟩ := List.forall_mem_cons.mp hrows
    exact .head (.enqueued row hrow) (ih _ hrows)

theorem undispatchedRows_mem {scan : Scan U} {cutoff : Time} {limit : Nat} :
    ∀ r ∈ undispatchedRows scan db now cutoff limit, r ∈ db.steps := by
  intro r hr
  have hmem := (scan.perm _).mem_iff.mp (List.mem_of_mem_take hr)
  exact (List.mem_filter.mp hmem).1

/-- `reconcile`: a chain of transitions in which no terminal job is repaired. -/
theorem reconcile_ok (hinv : Inv db) {scan : Scan U} {limit : Int} {r : Reconciliation}
    (h : reconcile env scan limit now db = .ok (r, db')) :
    ReflTransGen (Transition env now) db db' ∧ r.terminalRepairs = 0 := by
  unfold reconcile at h
  simp only [bind_eq_ok] at h
  obtain ⟨n, -, ⟨db₁, expired⟩, hloop, cutoff, -, candidates, -, h⟩ := h
  have hchain : ReflTransGen (Transition env now) db db₁ := by
    refine foldlM_ok_induction (fun s => ReflTransGen (Transition env now) db s.1) hloop .refl ?_
    rintro row - ⟨d, k⟩ ⟨d', k'⟩ hd hstep
    exact hd.trans (reconcileExpired_ok hstep)
  have hnil : terminalRows scan db₁ n = [] := terminalRows_eq_nil (inv_chain hinv hchain) scan n
  simp only [hnil, List.foldl_nil, Except.ok.injEq, Prod.mk.injEq] at h
  obtain ⟨rfl, rfl⟩ := h
  exact ⟨hchain.trans (foldl_enqueue_chain _ _ undispatchedRows_mem), rfl⟩

/-! ### Calls and runs -/

theorem body_chain (hinv : Inv db) {c : Call U} {a : Answer U}
    (h : c.body env db = .ok (a, db')) : ReflTransGen (Transition env c.now) db db' := by
  unfold Call.body at h
  split at h <;> rw [map_eq_ok] at h
  · obtain ⟨⟨job, d⟩, hd, h⟩ := h
    cases h
    rcases admitJob_spec hinv.stepIds hinv.owned hd with rfl | ⟨row, new, copies, -, ha⟩
    · exact .refl
    · exact .single (.admitted _ _ _ row new copies ha)
  · obtain ⟨⟨lease, d⟩, hd, h⟩ := h
    cases h
    exact (claim_ok hinv hd).1
  · obtain ⟨d, hd, h⟩ := h
    cases h
    exact .single (renew_ok hd)
  · obtain ⟨d, hd, h⟩ := h
    cases h
    exact .single (registerObject_ok hd)
  · obtain ⟨⟨row, d⟩, hd, h⟩ := h
    cases h
    rcases commit_ok hd with ⟨rfl, -⟩ | ⟨ht, -⟩
    · exact .refl
    · exact .single ht
  · obtain ⟨d, hd, h⟩ := h
    cases h
    exact .single (fail_ok hd)
  · obtain ⟨⟨job, d⟩, hd, h⟩ := h
    cases h
    exact cancel_ok hd
  · obtain ⟨d, hd, h⟩ := h
    cases h
    exact .single (settleCancel_ok hd)
  · obtain ⟨d, hd, h⟩ := h
    cases h
    exact .single (markDelivered_ok hd)
  · obtain ⟨⟨r, d⟩, hd, h⟩ := h
    cases h
    exact (reconcile_ok hinv hd).1

/-- One call, whether it returns or raises, is a chain of transitions. -/
theorem step_chain (hinv : Inv db) (c : Call U) :
    ReflTransGen (Transition env c.now) db (db.step env c).2 := by
  unfold Ledger.step transaction
  split
  · rename_i hbody
    exact body_chain hinv hbody
  · exact .refl

/-- What every transition keeps, together with the invariant, every run keeps. -/
theorem exec_invariant (P : Ledger U → Prop)
    (hstep : ∀ now db db', Inv db → P db → Transition env now db db' → P db') (calls : List (Call U))
    (hinv : Inv db) (hP : P db) : Inv (db.exec env calls) ∧ P (db.exec env calls) := by
  induction calls generalizing db with
  | nil => exact ⟨hinv, hP⟩
  | cons c calls ih =>
    have h := run_invariant (fun d => Inv d ∧ P d)
      (fun d d' hd ht => ⟨inv_transition hd.1 ht, hstep c.now d d' hd.1 hd.2 ht⟩)
      (step_chain hinv c) ⟨hinv, hP⟩
    exact ih h.1 h.2

theorem inv_exec (calls : List (Call U)) (hinv : Inv db) : Inv (db.exec env calls) :=
  (exec_invariant (fun _ => True) (fun _ _ _ _ _ _ => trivial) calls hinv trivial).1

/-- Along every run the database evolves. -/
theorem evolves_exec (calls : List (Call U)) (hinv : Inv db) : Evolves db (db.exec env calls) := by
  induction calls generalizing db with
  | nil => exact .refl db
  | cons c calls ih =>
    have hc : ReflTransGen (Transition env c.now) db (db.step env c).2 := step_chain hinv c
    exact (evolves_chain hinv hc).trans (ih (inv_chain hinv hc))

theorem exec_append (calls calls' : List (Call U)) :
    db.exec env (calls ++ calls') = (db.exec env calls).exec env calls' := by
  unfold Ledger.exec
  rw [List.foldl_append]

theorem exec_cons (c : Call U) (calls : List (Call U)) :
    db.exec env (c :: calls) = ((db.step env c).2).exec env calls := rfl

end Polymind.Jobs
