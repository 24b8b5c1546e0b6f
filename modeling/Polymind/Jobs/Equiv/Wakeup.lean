import Polymind.Jobs.Equiv.Reuse

/-!
# Wake-ups

* `Awake`: what the outbox holds about a step at a time; `awake_move`: every move keeps it;
* `Waits`: a `PENDING` step waits for a parent; `waits_transition`: every transition keeps it;
* `reconcile_repairs`: what `reconcile` leaves behind when its limit does not cut it short;
* `no_lost_wakeup`: no wake-up is lost in any history whose clock does not go back.
-/

namespace Polymind.Jobs

open Relation

variable {U : Type} [DecidableEq U] {env : Env U} {db db' : Ledger U} {now : Time}

/-! ### Announcements -/

/-- The entries of a step in the outbox at time `t`: they are available when the step is due, a waiting
step has one, and a running step was due when it was started. -/
structure Awake (t : Time) (v : View U) : Prop where
  available : ∀ o ∈ v.outbox, o.availableAt ≤ max v.row.notBefore t
  delivered : ∀ o ∈ v.outbox, ∀ d, o.deliveredAt = some d → d ≤ t
  announced : v.row.state = .ready ∨ v.row.state = .retryWait → v.outbox ≠ []
  started : v.row.state = .running → v.row.notBefore ≤ t

omit [DecidableEq U] in
theorem Awake.mono {t t' : Time} (hle : t ≤ t') {v : View U} (h : Awake t v) : Awake t' v :=
  ⟨fun o ho => (h.available o ho).trans (max_le_max_left _ hle),
    fun o ho d hd => (h.delivered o ho d hd).trans hle, h.announced,
    fun hs => (h.started hs).trans hle⟩

omit [DecidableEq U] in
theorem Awake.of_fresh {v : View U} (h : Fresh now v) : Awake now v := by
  have hstate := h.planned.state
  refine ⟨fun o ho => ?_, fun o ho d hd => ?_, fun hs => ?_, fun hs => ?_⟩
  · rw [(h.outbox o ho).1]
    exact le_max_right _ _
  · rw [(h.outbox o ho).2] at hd
    cases hd
  · rcases hs with hs | hs
    · exact h.announced hs
    · rw [hs] at hstate
      simp at hstate
  · rw [h.notBefore]

omit [DecidableEq U] in
/-- A step that stops waiting and running keeps its entries. -/
theorem Awake.of_closed {v v' : View U} (h : Awake now v) (houtbox : v'.outbox = v.outbox)
    (hbefore : v'.row.notBefore = v.row.notBefore)
    (hstate : v'.row.state = .succeeded ∨ v'.row.state = .failed ∨ v'.row.state = .cancelled) :
    Awake now v' := by
  refine ⟨?_, ?_, fun hs => ?_, fun hs => ?_⟩
  · rw [houtbox, hbefore]
    exact h.available
  · rw [houtbox]
    exact h.delivered
  · rcases hs with hs | hs <;> rw [hs] at hstate <;> simp at hstate
  · rw [hs] at hstate
    simp at hstate

/-- Every move keeps the entries of a step available in time. -/
theorem awake_move {policy : RetryPolicy} {given : StepRow U → Str → Prop} {v v' : View U}
    (h : Awake now v) (hm : Move now policy given v v') : Awake now v' := by
  have hadd : ∀ {o : OutboxRow U} {P : OutboxRow U → Prop}, (∀ x ∈ v.outbox, P x) → P o →
      ∀ x ∈ v.outbox ++ [o], P x := by
    intro o P hall ho x hx
    rcases List.mem_append.mp hx with hx | hx
    · exact hall x hx
    · exact List.mem_singleton.mp hx ▸ ho
  cases hm with
  | same => exact h
  | activated key inputs sent hpend _ hne hsent =>
    refine ⟨fun o ho => ?_, fun o ho d hd => ?_, fun _ => ?_, fun hs => nomatch hs⟩
    · rcases List.mem_append.mp ho with ho | ho
      · exact h.available o ho
      · rw [(hsent o ho).1]
        exact le_max_right _ _
    · rcases List.mem_append.mp ho with ho | ho
      · exact h.delivered o ho d hd
      · rw [(hsent o ho).2] at hd
        cases hd
    · exact List.append_ne_nil_of_right_ne_nil _ hne
  | started owner expires hwait hdue _ =>
    have hrow : startRow now v.row owner expires v.row = { v.row with
        state := .running, attemptCount := v.row.attemptCount + 1, fence := v.row.fence + 1
        leaseOwner := some owner, leaseExpiresAt := some expires
        startedAt := some (v.row.startedAt.getD now), failureCategory := none } := if_pos rfl
    rw [hrow]
    exact ⟨h.available, h.delivered, fun hs => by simp at hs, fun _ => hdue⟩
  | renewed expires hrun => exact ⟨h.available, h.delivered, h.announced, h.started⟩
  | retried fault retryAt dispatchId hrun hdelay _ =>
    have hrow : retryRow v.row retryAt fault.category v.row = { v.row with
        state := .retryWait, notBefore := retryAt, failureCategory := some fault.category
        leaseOwner := none, leaseExpiresAt := none } := if_pos rfl
    rw [hrow]
    refine ⟨hadd (fun o ho => ?_) (le_max_left _ _), hadd h.delivered (by simp),
      fun _ => List.append_ne_nil_of_right_ne_nil _ (List.cons_ne_nil _ _), fun hs => nomatch hs⟩
    -- the step was due when it was started, so its older entries are available by now
    have hsoon : o.availableAt ≤ now := (h.available o ho).trans (max_le (h.started hrun) le_rfl)
    exact hsoon.trans (le_max_right _ _)
  | failed fault category hrun => exact h.of_closed rfl rfl (Or.inr (Or.inl rfl))
  | spent category hwait => exact h.of_closed rfl rfl (Or.inr (Or.inl rfl))
  | cancelled hact => exact h.of_closed rfl rfl (Or.inr (Or.inr rfl))
  | committed lease refs _ _ _ _ _ =>
    have hrow : commitRow now v.row.stepId v.row = { v.row with
        state := .succeeded, finishedAt := some now, leaseOwner := none
        leaseExpiresAt := none } := if_pos rfl
    rw [hrow]
    exact h.of_closed rfl rfl (Or.inl rfl)
  | registered ref hrun => exact ⟨h.available, h.delivered, h.announced, h.started⟩
  | notified dispatchId =>
    exact ⟨hadd h.available (le_max_right _ _), hadd h.delivered (by simp),
      fun _ => List.append_ne_nil_of_right_ne_nil _ (List.cons_ne_nil _ _), h.started⟩
  | delivered dispatchId =>
    refine ⟨fun o ho => ?_, fun o ho d hd => ?_, fun hs => ?_, h.started⟩
    · obtain ⟨b, hb, rfl⟩ := List.mem_map.mp ho
      have havail : (deliverRow now dispatchId v.row.stepId b).availableAt = b.availableAt := by
        unfold deliverRow
        split <;> rfl
      rw [havail]
      exact h.available b hb
    · obtain ⟨b, hb, rfl⟩ := List.mem_map.mp ho
      unfold deliverRow at hd
      split at hd
      · -- the first delivery counts
        obtain rfl := Option.some.inj hd
        cases hb' : b.deliveredAt with
        | none => exact le_rfl
        | some d => exact h.delivered b hb d hb'
      · exact h.delivered b hb d hd
    · exact fun hnil => h.announced hs (List.map_eq_nil_iff.mp hnil)

/-! ### Runs in time -/

/-- What every transition keeps at its time, and time alone keeps, every run keeps. -/
theorem exec_timed (P : Time → Ledger U → Prop)
    (hmono : ∀ t t' db, t ≤ t' → P t db → P t' db)
    (hstep : ∀ now db db', Sound env db → P now db → Transition env now db db' → P now db')
    (calls : List (Call U)) (hclock : calls.Pairwise fun a b => a.now ≤ b.now) (hs : Sound env db)
    {t t' : Time} (hfrom : ∀ c ∈ calls, t ≤ c.now) (hto : ∀ c ∈ calls, c.now ≤ t') (hle : t ≤ t')
    (hP : P t db) : Sound env (db.exec env calls) ∧ P t' (db.exec env calls) := by
  induction calls generalizing db t with
  | nil => exact ⟨hs, hmono t t' db hle hP⟩
  | cons c calls ih =>
    obtain ⟨hc, hclock⟩ := List.pairwise_cons.mp hclock
    obtain ⟨htc, -⟩ := List.forall_mem_cons.mp hfrom
    obtain ⟨hct, hto⟩ := List.forall_mem_cons.mp hto
    obtain ⟨hs', hP'⟩ := step_sound (P c.now) c (hstep c.now) hs (hmono t c.now db htc hP)
    exact ih hclock hs' hc hto hct hP'

theorem awake_transition (hs : Sound env db) (h : AllViews (fun _ => Awake now) db)
    (ht : Transition env now db db') : AllViews (fun _ => Awake now) db' :=
  allViews_transition hs.inv hs.refs hs.valid (fun _ _ _ => Awake.of_fresh)
    (fun _ _ _ _ _ hv hm => awake_move hv hm) h ht

/-- In a history whose clock does not go back every step is announced, at every later time. -/
theorem awake_reachable (env : Env U) (calls : List (Call U)) (hclock : calls.Pairwise fun a b => a.now ≤ b.now)
    {t : Time} (hto : ∀ c ∈ calls, c.now ≤ t) :
    Sound env (Ledger.empty.exec env calls) ∧
      AllViews (fun _ => Awake t) (Ledger.empty.exec env calls) := by
  refine exec_timed (fun t => AllViews fun _ => Awake t) ?_ ?_ calls hclock Sound.empty
    (fun _ _ => Nat.zero_le _) hto (Nat.zero_le _) (fun _ hr => nomatch hr)
  · exact fun t t' d hle h r hr j hj hjr => (h r hr j hj hjr).mono hle
  · exact fun now d d' hs h ht => awake_transition hs h ht

/-! ### Activation -/

/-- A `PENDING` step waits for a parent that no row of its job has succeeded as. -/
def Waits (db : Ledger U) : Prop :=
  ∀ r ∈ db.steps, r.state = .pending → ∃ parent ∈ r.spec.dependsOn,
    ∀ p ∈ db.steps, p.jobId = r.jobId → p.unitId = parent → p.state ≠ .succeeded

/-- A move to or from `PENDING` or `SUCCEEDED` activates the step, or records a manifest for it. -/
theorem Move.settled {policy : RetryPolicy} {given : StepRow U → Str → Prop} {v v' : View U}
    (hm : Move now policy given v v')
    (hs : v'.row.state = .pending ∨ v'.row.state = .succeeded) :
    v'.row = v.row ∨ (v'.row.state = .succeeded ∧ v'.manifests ≠ v.manifests) := by
  cases hm with
  | same => exact Or.inl rfl
  | activated key inputs sent _ _ _ _ => simp at hs
  | started owner expires _ _ _ => simp [startRow] at hs
  | renewed expires hrun => simp [hrun] at hs
  | retried fault retryAt dispatchId _ _ _ => simp [retryRow] at hs
  | failed fault category _ => simp [StepRow.failedWith] at hs
  | spent category _ => simp [StepRow.failedWith] at hs
  | cancelled _ => simp [StepRow.cancelled] at hs
  | committed lease refs _ _ _ _ _ =>
    refine Or.inr ⟨?_, ?_⟩
    · rw [commitRow, if_pos rfl]
    · simp
  | registered ref _ => exact Or.inl rfl
  | notified dispatchId => exact Or.inl rfl
  | delivered dispatchId => exact Or.inl rfl

/-- A transition that records no manifest: its `PENDING` and `SUCCEEDED` rows were there before. -/
theorem settled_mem (hs : Sound env db) (ht : Transition env now db db')
    (hman : db'.manifests = db.manifests) (hold : ∀ r ∈ db'.steps, ¬Adds env now db db' r) :
    ∀ r ∈ db'.steps, r.state = .pending ∨ r.state = .succeeded → r ∈ db.steps := by
  intro r' hr' hstate
  rcases view_transition hs.inv hs.refs ht r' hr' with hnew | ⟨r, hr, hid, -, hm⟩
  · exact absurd hnew (hold r' hr')
  · obtain ⟨j, hj, hjr⟩ := hs.inv.exists_job hr
    rcases (hm j hj hjr).settled hstate with heq | ⟨-, hne⟩
    · have heq : r' = r := heq
      exact heq ▸ hr
    · refine absurd ?_ hne
      show db'.manifestsOf r'.stepId = db.manifestsOf r.stepId
      rw [Ledger.manifestsOf, hman, hid]
      rfl

/-- After `_activate` has visited the rows of a job, those it left `PENDING` wait for a parent. -/
theorem waits_of_activated (rows : List (StepRow U)) (g : StepRow U → StepRow U) (jobId : U)
    {steps : List (StepRow U)}
    (hunits : ∀ r ∈ steps, ∀ s ∈ steps, r.jobId = s.jobId → r.unitId = s.unitId → r = s)
    (hrows : ∀ q ∈ rows, q.jobId = jobId ∧ g q ∈ steps)
    (hall : ∀ p ∈ steps, p.jobId = jobId → ∃ q ∈ rows, g q = p)
    (hdue : ∀ q ∈ rows, Due rows q → ∃ key inputs,
      g q = { q with state := .ready, stepKey := key, inputFingerprint := inputs })
    (hrest : ∀ q ∈ rows, ¬Due rows q → g q = q) {r : StepRow U} (hr : r ∈ steps)
    (hjob : r.jobId = jobId) (hpend : r.state = .pending) : ∃ parent ∈ r.spec.dependsOn,
      ∀ p ∈ steps, p.jobId = r.jobId → p.unitId = parent → p.state ≠ .succeeded := by
  -- a row that is not `READY` afterwards is as it was
  have hkept : ∀ q ∈ rows, (g q).state ≠ .ready → g q = q := by
    intro q hq hne
    by_cases hd : Due rows q
    · obtain ⟨key, inputs, heq⟩ := hdue q hq hd
      rw [heq] at hne
      exact absurd rfl hne
    · exact hrest q hq hd
  have hunit : ∀ q ∈ rows, (g q).jobId = q.jobId ∧ (g q).unitId = q.unitId := by
    intro q hq
    by_cases hd : Due rows q
    · obtain ⟨key, inputs, heq⟩ := hdue q hq hd
      rw [heq]
      exact ⟨rfl, rfl⟩
    · rw [hrest q hq hd]
      exact ⟨rfl, rfl⟩
  obtain ⟨q, hq, rfl⟩ := hall r hr hjob
  have hgq : g q = q := hkept q hq (by simp [hpend])
  by_contra hno
  push Not at hno
  rw [hgq] at hno hpend
  -- then all parents have succeeded, and the row was due
  have hd : Due rows q := by
    refine ⟨hpend, fun parent hparent => ?_⟩
    obtain ⟨p, hp, hpj, hpu, hps⟩ := hno parent hparent
    have hpj : p.jobId = jobId := hpj.trans (hrows q hq).1
    obtain ⟨p₀, hp₀, hgp⟩ := hall p hp hpj
    cases hf : rows.find? fun r => decide (r.unitId = parent) with
    | none =>
      refine absurd (decide_eq_true ?_) (List.find?_eq_none.mp hf p₀ hp₀)
      rw [← (hunit p₀ hp₀).2, hgp, hpu]
    | some x =>
      have hx := List.mem_of_find?_eq_some hf
      have hxu : x.unitId = parent := by simpa using List.find?_some hf
      have hgx : g x = p := by
        refine hunits _ (hrows x hx).2 p hp ?_ ?_
        · rw [(hunit x hx).1, (hrows x hx).1, hpj]
        · rw [(hunit x hx).2, hxu, hpu]
      have hxp : x = p := (hkept x hx (by simp [hgx, hps])).symm.trans hgx
      exact ⟨x, rfl, hxp ▸ hps⟩
  obtain ⟨key, inputs, heq⟩ := hdue q hq hd
  rw [hgq] at heq
  have hready : q.state = .ready := congrArg StepRow.state heq
  rw [hpend] at hready
  cases hready

theorem waits_admitted (hs : Sound env db) (h : Waits db) (hunits' : Units db') {scan : Scan U}
    {jobId : U} {row : JobRow U} {new : List (StepRow U)} {copies : List (ManifestRow U)}
    (had : Admitted env scan db jobId now db' row new copies) : Waits db' := by
  have hsteps : db'.steps = db.steps ++ new := by
    obtain ⟨objects, outbox, seq, rfl⟩ := had.result
    rfl
  have hapart : ∀ r ∈ db.steps, r.jobId ≠ jobId := by
    intro r hr heq
    exact had.rowFresh (heq ▸ hs.inv.owned r hr)
  intro r hr hpend
  have hmem := hr
  rw [hsteps] at hr
  rcases List.mem_append.mp hr with hold | hnew
  · -- the new steps belong to another job
    obtain ⟨parent, hparent, hnone⟩ := h r hold hpend
    refine ⟨parent, hparent, fun p hp hpj hpu => ?_⟩
    rw [hsteps] at hp
    rcases List.mem_append.mp hp with hp | hp
    · exact hnone p hp hpj hpu
    · rw [(had.planned p hp).jobId] at hpj
      exact absurd hpj.symm (hapart r hold)
  · obtain ⟨prior, execution, drafts, rows, g, hp⟩ := had.plans
    have hdraft : ∀ q ∈ rows, q ∈ drafts := fun q hq => hp.perm.mem_iff.mp hq
    refine waits_of_activated rows g jobId hunits' ?_ ?_ ?_ ?_ hmem
      (had.planned r hnew).jobId hpend
    · intro q hq
      have hgnew : g q ∈ new := hp.new_eq ▸ List.mem_map_of_mem (hdraft q hq)
      refine ⟨?_, hsteps ▸ List.mem_append_right _ hgnew⟩
      have hgj : (g q).jobId = q.jobId := by
        rcases hp.kept (hdraft q hq) with ⟨-, hg⟩ | hg <;> rw [hg]
        rfl
      rw [← hgj]
      exact (had.planned _ hgnew).jobId
    · intro p hmem hpj
      rw [hsteps] at hmem
      rcases List.mem_append.mp hmem with hmem | hmem
      · exact absurd hpj (hapart p hmem)
      · rw [hp.new_eq] at hmem
        obtain ⟨q, hq, hgq⟩ := List.mem_map.mp hmem
        exact ⟨q, hp.perm.mem_iff.mpr hq, hgq⟩
    · exact fun q hq hd => ⟨_, _, hp.due q (hdraft q hq) hd⟩
    · exact fun q hq hd => hp.rest q (hdraft q hq) hd

theorem waits_committed (hs : Sound env db) (h : Waits db) {scan : Scan U} {lease : Lease U}
    {refs : List (ObjectRef U)} {job : JobRow U} {row : StepRow U} {db₁ : Ledger U}
    (hunits' : Units db₁) (hc : checkLease env db lease now false = .ok (job, row))
    (hact : activate env scan (recordCommit now lease refs db) job now = .ok db₁) : Waits db₁ := by
  obtain ⟨hl, -, hsid, -⟩ := onLive_of_checkLease hc
  obtain ⟨g, sent, hg⟩ := activate_ok (by exact nodup_commitRow hs.inv lease.stepId) hact
  obtain rfl := hg.result
  set d : Ledger U := recordCommit now lease refs db with hd
  set rows := scan.order (d.stepsOf job.jobId) with hrows
  have hmem : ∀ q, q ∈ rows ↔ q ∈ d.steps ∧ q.jobId = job.jobId := fun q =>
    (scan.perm _).mem_iff.trans mem_stepsOf
  -- steps of other jobs are not visited
  have hother : ∀ q ∈ d.steps, q.jobId ≠ job.jobId → g q = q := fun q hq hne =>
    hg.rest q hq fun hdue => hne ((hmem q).mp hdue.1).2
  have hgj : ∀ q ∈ d.steps, (g q).jobId = q.jobId := by
    intro q hq
    by_cases hdue : q ∈ rows ∧ Due rows q
    · rw [hg.due q hdue.1 hdue.2]
      rfl
    · rw [hg.rest q hq hdue]
  intro r hr hpend
  by_cases hjob : r.jobId = job.jobId
  · refine waits_of_activated rows g job.jobId hunits' ?_ ?_ ?_ ?_ hr hjob
      hpend
    · exact fun q hq => ⟨((hmem q).mp hq).2, List.mem_map_of_mem ((hmem q).mp hq).1⟩
    · intro p hp hpj
      obtain ⟨q, hq, rfl⟩ := List.mem_map.mp hp
      exact ⟨q, (hmem q).mpr ⟨hq, (hgj q hq).symm.trans hpj⟩, rfl⟩
    · exact fun q hq hdue => ⟨_, _, hg.due q hq hdue⟩
    · exact fun q hq hdue => hg.rest q ((hmem q).mp hq).1 fun hc => hdue hc.2
  · -- the committed step belongs to `job`, so another job is as it was
    have hback : ∀ p ∈ d.steps.map g, p.jobId = r.jobId → p ∈ db.steps := by
      intro p hp hpj
      obtain ⟨q, hq, rfl⟩ := List.mem_map.mp hp
      rw [hgj q hq] at hpj
      have hne : q.jobId ≠ job.jobId := fun heq => hjob (hpj.symm.trans heq)
      rw [hother q hq hne]
      obtain ⟨q₀, hq₀, rfl⟩ := List.mem_map.mp hq
      rw [(commitRow_ids now lease.stepId q₀).2] at hne
      rw [commitRow, if_neg fun hid => hne ?_]
      · exact hq₀
      · rw [eq_of_stepId_eq hs.inv.stepIds hq₀ hl.row_mem (hid.trans hsid.symm), hl.owner]
    obtain ⟨parent, hparent, hnone⟩ := h r (hback r hr rfl) hpend
    exact ⟨parent, hparent, fun p hp hpj hpu => hnone p (hback p hp hpj) hpj hpu⟩

/-- Every transition leaves no step `PENDING` whose parents have all succeeded. -/
theorem waits_transition (hs : Sound env db) (hunits : Units db) (h : Waits db)
    (ht : Transition env now db db') : Waits db' := by
  have hunits' := units_transition hs hunits ht
  -- neither an admission nor a commit
  have hrest : db'.manifests = db.manifests → db'.jobs.length = db.jobs.length → Waits db' := by
    intro hman hjobs
    have hback := settled_mem hs ht hman ?_
    · intro r hr hpend
      obtain ⟨parent, hparent, hnone⟩ := h r (hback r hr (Or.inl hpend)) hpend
      exact ⟨parent, hparent, fun p hp hpj hpu hps =>
        hnone p (hback p hp (Or.inr hps)) hpj hpu hps⟩
    · rintro r - ⟨-, -, scan, jobId, row, new, copies, had, -⟩
      obtain ⟨objects, outbox, seq, rfl⟩ := had.result
      simp [refresh_eq] at hjobs
  cases ht with
  | admitted scan jobId _ row new copies had => exact waits_admitted hs h hunits' had
  | committed scan lease refs job row db₁ hc _ _ hact =>
    -- `_refresh` leaves the steps alone
    have hunits₁ : Units db₁ := hunits'
    have hwaits : Waits db₁ := waits_committed hs h hunits₁ hc hact
    exact hwaits
  | retried scan job row fault retryAt _ _ _ _ => exact hrest rfl (List.length_map ..)
  | failed scan job row fault category _ _ =>
    refine hrest ?_ ?_ <;> rw [terminalFailure_eq _ _ _ _ _ _ (by exact hs.inv.stepIds)]
    · rfl
    · simp [refresh_eq]
  | spent scan job row _ _ =>
    refine hrest ?_ ?_ <;> rw [terminalFailure_eq _ _ _ _ _ _ hs.inv.stepIds]
    · rfl
    · simp [refresh_eq]
  | started scan job row owner expires _ _ _ _ _ => exact hrest rfl (List.length_map ..)
  | renewed lease job row expires _ => exact hrest rfl rfl
  | registered lease job row ref _ =>
    refine hrest ?_ ?_ <;> unfold Ledger.insertIntent <;> split <;> rfl
  | cancelled scan job _ _ =>
    refine hrest ?_ ?_ <;> rw [cancelJob_eq]
    · rfl
    · simp [refresh_eq]
  | abandoned scan job row _ _ =>
    refine hrest ?_ ?_ <;> rw [cancelStep_eq, cancelJob_eq]
    · rfl
    · simp [refresh_eq]
  | settled scan job row _ _ _ _ _ =>
    refine hrest ?_ ?_ <;> rw [cancelStep_eq]
    · rfl
    · simp [refresh_eq]
  | enqueued row _ => exact hrest rfl rfl
  | delivered dispatchId stepId => exact hrest rfl rfl

/-! ### Reconciliation -/

/-- `_failure` leaves no running row of the step that failed, and starts none. -/
theorem failure_running {scan : Scan U} {job : JobRow U} {row : StepRow U} {fault : SanitizedFailure}
    (hinv : Inv db) (h : failure env scan db job row fault now = .ok db') :
    ∀ r ∈ db'.steps, r.state = .running → r ∈ db.steps ∧ r.stepId ≠ row.stepId := by
  intro r' hr' hrun
  rcases failure_ok h with ⟨retryAt, -, -, rfl⟩ | ⟨category, rfl⟩
  · obtain ⟨r, hr, rfl⟩ := List.mem_map.mp hr'
    by_cases hid : r.stepId = row.stepId
    · rw [retryRow, if_pos hid] at hrun
      cases hrun
    · rw [retryRow, if_neg hid]
      exact ⟨hr, hid⟩
  · rw [terminalFailure_eq _ _ _ _ _ _ (by exact hinv.stepIds)] at hr'
    obtain ⟨r, hr, rfl⟩ := List.mem_map.mp hr'
    have hsame := failRow_running hrun
    rw [hsame]
    refine ⟨hr, fun hid => ?_⟩
    rw [failRow, if_pos hid] at hrun
    cases hrun

/-- One iteration of the first loop of `reconcile` stops the step it visits. -/
theorem reconcileExpired_running {scan : Scan U} {row : StepRow U} {n m : Nat} (hinv : Inv db)
    (h : reconcileExpired env scan now (db, n) row = .ok (db', m)) :
    ∀ r ∈ db'.steps, r.state = .running → r ∈ db.steps ∧ r.stepId ≠ row.stepId := by
  unfold reconcileExpired at h
  simp only [bind_eq_ok] at h
  obtain ⟨row₁, hrow, h⟩ := h
  obtain ⟨hr₁, hid₁, -⟩ := findStep_ok hrow
  split at h
  · rename_i hstopped
    cases h
    refine fun r hr hrun => ⟨hr, fun hid => hstopped ?_⟩
    rw [← eq_of_stepId_eq hinv.stepIds hr hr₁ (hid.trans hid₁.symm), hrun]
  · split at h
    · cases h
    · split at h
      · -- the job accepts no work any more
        cases h
        rw [cancelStep_eq]
        intro r' hr' hrun
        obtain ⟨r, hr, rfl⟩ := List.mem_map.mp hr'
        rw [cancelRow_running hrun]
        refine ⟨hr, fun hid => ?_⟩
        rw [cancelRow, if_pos (List.mem_singleton.mpr (hid.trans hid₁.symm))] at hrun
        cases hrun
      · rw [bind_eq_ok] at h
        obtain ⟨d, hd, h⟩ := h
        cases h
        rw [← hid₁]
        exact failure_running hinv hd

/-- The first loop of `reconcile` stops the steps it visits, and starts none. -/
theorem reconcileLoop_running {scan : Scan U} {rows : List (StepRow U)} {n m : Nat} (hinv : Inv db)
    (h : rows.foldlM (reconcileExpired env scan now) (db, n) = .ok (db', m)) :
    ReflTransGen (Transition env now) db db' ∧ ∀ r ∈ db'.steps, r.state = .running →
      r ∈ db.steps ∧ ∀ row ∈ rows, r.stepId ≠ row.stepId := by
  refine foldlM_ok_prefix (fun done s => ReflTransGen (Transition env now) db s.1 ∧
    ∀ r ∈ s.1.steps, r.state = .running → r ∈ db.steps ∧ ∀ row ∈ done, r.stepId ≠ row.stepId) h ?_ ?_
  · exact ⟨.refl, fun r hr _ => ⟨hr, by simp⟩⟩
  · rintro done row ⟨d, k⟩ ⟨d', k'⟩ - ⟨hc, hd⟩ hstep
    refine ⟨hc.trans (reconcileExpired_ok hstep), fun r hr hrun => ?_⟩
    obtain ⟨hr, hne⟩ := reconcileExpired_running (inv_chain hinv hc) hstep r hr hrun
    obtain ⟨hr, hdone⟩ := hd r hr hrun
    refine ⟨hr, fun x hx => ?_⟩
    rcases List.mem_append.mp hx with hx | hx
    · exact hdone x hx
    · rw [List.mem_singleton.mp hx]
      exact hne

/-- `limit` is at least the number of rows that each query of `reconcile` can select (the second one,
for active steps of terminal jobs, selects none: `terminalRows_eq_nil`). -/
def Covers (env : Env U) (scan : Scan U) (db : Ledger U) (now : Time) (limit : Nat) : Prop :=
  (∀ n, (expiredRows scan db now n).length ≤ limit) ∧
  ∀ db₁ expired cutoff,
    (expiredRows scan db now limit).foldlM (reconcileExpired env scan now) (db, 0)
      = .ok (db₁, expired) → Time.minus now env.redeliveryMicros = .ok cutoff →
    ∀ n, (undispatchedRows scan db₁ now cutoff n).length ≤ limit

omit [DecidableEq U] in
/-- A limit that covers a query selects all of its rows. -/
theorem take_covers {rows : List (StepRow U)} {limit : Nat} (h : ∀ n, (rows.take n).length ≤ limit) :
    rows.take limit = rows := by
  have hlen := h rows.length
  rw [List.take_length] at hlen
  exact List.take_of_length_le hlen

/-- What `reconcile` leaves behind: no lease that has expired, and every due step of a job that accepts
work is in the queue or was delivered lately. -/
structure Reconciled (env : Env U) (now : Time) (db : Ledger U) : Prop where
  leases : ∀ r ∈ db.steps, r.state = .running → r.expired now = false
  dispatched : ∀ r ∈ db.steps, schedulable db r = true → r.notBefore ≤ now →
    (∃ o ∈ pendingRows db now, o.stepId = r.stepId) ∨
    ∃ o ∈ db.outbox, o.stepId = r.stepId ∧ ∃ delivered, o.deliveredAt = some delivered ∧
      delivered ≤ now ∧ now < delivered + env.redeliveryMicros

omit [DecidableEq U] in
/-- Repeated dispatches: only the outbox grows, by an entry for each row. -/
theorem foldl_enqueue (now : Time) (rows : List (StepRow U)) (db : Ledger U) :
    ∃ outbox seq, rows.foldl (fun db row => db.enqueue row.stepId now now) db
      = { db with outbox := db.outbox ++ outbox, outboxSeq := seq } ∧
    ∀ r ∈ rows, ∃ o ∈ outbox, o.stepId = r.stepId ∧ o.availableAt = now ∧ o.deliveredAt = none := by
  induction rows generalizing db with
  | nil => exact ⟨[], db.outboxSeq, by simp, by simp⟩
  | cons row rows ih =>
    obtain ⟨outbox, seq, heq, hall⟩ := ih (db.enqueue row.stepId now now)
    refine ⟨⟨db.outboxSeq + 1, row.stepId, now, now, none⟩ :: outbox, seq, ?_, ?_⟩
    · rw [List.foldl_cons, heq]
      simp [Ledger.enqueue]
    · rw [List.forall_mem_cons]
      refine ⟨⟨_, List.mem_cons_self .., rfl, rfl, rfl⟩, fun r hr => ?_⟩
      obtain ⟨o, ho, hrest⟩ := hall r hr
      exact ⟨o, List.mem_cons_of_mem _ ho, hrest⟩

/-- `reconcile` repairs everything its limit lets it see. -/
theorem reconcile_repairs (hs : Sound env db) (hawake : AllViews (fun _ => Awake now) db)
    {scan : Scan U} {limit : Int} {r : Reconciliation}
    (h : reconcile env scan limit now db = .ok (r, db'))
    (hcovers : Covers env scan db now limit.toNat) : Reconciled env now db' := by
  unfold reconcile at h
  simp only [bind_eq_ok] at h
  obtain ⟨n, hbounded, ⟨db₁, expired⟩, hloop, cutoff, hcutoff, candidates, -, h⟩ := h
  obtain rfl : n = limit.toNat := by
    unfold bounded at hbounded
    split at hbounded
    · exact (Except.ok.inj hbounded).symm
    · cases hbounded
  obtain ⟨hchain, hrunning⟩ := reconcileLoop_running hs.inv hloop
  have hs₁ := sound_chain hs hchain
  have hawake₁ : AllViews (fun _ => Awake now) db₁ :=
    (run_invariant (fun d => Sound env d ∧ AllViews (fun _ => Awake now) d)
      (fun d d' hd ht => ⟨sound_transition hd.1 ht, awake_transition hd.1 hd.2 ht⟩) hchain
      ⟨hs, hawake⟩).2
  have hnil : terminalRows scan db₁ limit.toNat = [] := terminalRows_eq_nil hs₁.inv scan _
  simp only [hnil, List.foldl_nil, Except.ok.injEq, Prod.mk.injEq] at h
  obtain ⟨-, rfl⟩ := h
  obtain ⟨outbox, seq, heq, hsent⟩ :=
    foldl_enqueue now (undispatchedRows scan db₁ now cutoff limit.toNat) db₁
  rw [heq]
  refine ⟨fun row hrow hrun => ?_, fun row hrow hsched hdue => ?_⟩
  · -- a running step with an expired lease was visited by the first loop
    obtain ⟨hold, hne⟩ := hrunning row hrow hrun
    by_contra hexp
    rw [Bool.not_eq_false] at hexp
    refine hne row ?_ rfl
    rw [expiredRows, take_covers hcovers.1, List.mem_insertionSort, (scan.perm _).mem_iff]
    exact List.mem_filter.mpr ⟨hold, by simp [hrun, hexp]⟩
  · have hrow : row ∈ db₁.steps := hrow
    have hsched : schedulable db₁ row = true := hsched
    obtain ⟨j, hj, hjr⟩ := hs₁.inv.exists_job hrow
    have hpending : ∀ o ∈ db₁.outbox ++ outbox, o.stepId = row.stepId → o.deliveredAt = none →
        o.availableAt ≤ now → o ∈ pendingRows
          ({ db₁ with outbox := db₁.outbox ++ outbox, outboxSeq := seq } : Ledger U) now := by
      intro o ho hid hnew havail
      refine List.mem_filter.mpr ⟨ho, ?_⟩
      simp only [Bool.and_eq_true, Option.isNone_iff_eq_none, decide_eq_true_eq, List.any_eq_true]
      exact ⟨⟨hnew, havail⟩, row, hrow, ⟨hid.symm, hsched⟩, hdue⟩
    by_cases hlate : row ∈ undispatchedRows scan db₁ now cutoff limit.toNat
    · -- the third loop has repeated the dispatch
      obtain ⟨o, ho, hid, havail, hnew⟩ := hsent row hlate
      exact Or.inl ⟨o, hpending o (List.mem_append_right _ ho) hid hnew havail.le, hid⟩
    · rw [undispatchedRows, take_covers (hcovers.2 db₁ expired cutoff hloop hcutoff),
        (scan.perm _).mem_iff, List.mem_filter] at hlate
      simp only [hsched, hdue, decide_true, Bool.and_self, Bool.true_and, Bool.not_eq_true',
        hrow, true_and, Bool.not_eq_false, List.any_eq_true, Bool.and_eq_true,
        decide_eq_true_eq] at hlate
      obtain ⟨o, ho, hid, hdelivered⟩ := hlate
      have hview : o ∈ (db₁.view row).outbox := List.mem_filter.mpr ⟨ho, decide_eq_true hid⟩
      have hv := hawake₁ row hrow j hj hjr
      cases hd : o.deliveredAt with
      | none =>
        refine Or.inl ⟨o, hpending o (List.mem_append_left _ ho) hid hd ?_, hid⟩
        exact (hv.available o hview).trans (max_le hdue le_rfl)
      | some delivered =>
        rw [hd] at hdelivered
        refine Or.inr ⟨o, List.mem_append_left _ ho, hid, delivered, hd,
          hv.delivered o hview delivered hd, ?_⟩
        unfold Time.minus at hcutoff
        split at hcutoff
        · rename_i hle
          obtain rfl := Except.ok.inj hcutoff
          exact (tsub_lt_iff_right hle).mp (of_decide_eq_true hdelivered)
        · cases hcutoff

/-! ### The main result -/

/-- At time `t` every step that waits for a worker of a job that accepts work is in the outbox, from when
it is due on. -/
def Announced (t : Time) (db : Ledger U) : Prop :=
  ∀ r ∈ db.steps, schedulable db r = true →
    ∃ o ∈ db.outbox, o.stepId = r.stepId ∧ o.availableAt ≤ max r.notBefore t

/-- No step is `PENDING` whose parents have all succeeded, in any job. -/
def Activations (db : Ledger U) : Prop :=
  ∀ r ∈ db.steps, (∀ parent ∈ r.spec.dependsOn, ∃ p ∈ db.steps, p.jobId = r.jobId ∧
    p.unitId = parent ∧ p.state = .succeeded) → r.state ≠ .pending

theorem Announced.of_awake {t : Time} (hs : Sound env db) (h : AllViews (fun _ => Awake t) db) :
    Announced t db := by
  intro r hr hsched
  obtain ⟨j, hj, hjr⟩ := hs.inv.exists_job hr
  have hv := h r hr j hj hjr
  have hwait : r.state = .ready ∨ r.state = .retryWait := by
    simp only [schedulable, Bool.and_eq_true, Bool.or_eq_true, decide_eq_true_eq] at hsched
    exact hsched.1
  obtain ⟨o, ho⟩ := List.exists_mem_of_ne_nil _ (hv.announced hwait)
  obtain ⟨hmem, hid⟩ := List.mem_filter.mp ho
  exact ⟨o, hmem, of_decide_eq_true hid, hv.available o ho⟩

theorem waits_reachable (calls : List (Call U)) :
    Waits (Ledger.empty.exec env calls) := by
  have hempty : Units (Ledger.empty : Ledger U) ∧ Waits (Ledger.empty : Ledger U) := by
    refine ⟨?_, ?_⟩ <;> intro r hr <;> cases hr
  exact (exec_sound (fun d => Units d ∧ Waits d) (fun now d d' hs h ht =>
    ⟨units_transition hs h.1 ht, waits_transition hs h.1 h.2 ht⟩) calls Sound.empty hempty).2.2

/-- No wake-up is lost, in any history whose clock does not go back: at every later time a waiting step
of a job that accepts work has an entry in the outbox that is available once it is due; no step stays
`PENDING` once its parents have succeeded; and a `reconcile` whose limit covers what it can select leaves
no expired lease, and every due step in the queue or delivered within the redelivery time. -/
theorem no_lost_wakeup (env : Env U) (calls : List (Call U))
    (hclock : calls.Pairwise fun a b => a.now ≤ b.now) :
    (∀ t, (∀ c ∈ calls, c.now ≤ t) → Announced t (Ledger.empty.exec env calls)) ∧
    Activations (Ledger.empty.exec env calls) ∧
    ∀ (limit : Int) (now : Time) (scan : Scan U) (r : Reconciliation), (∀ c ∈ calls, c.now ≤ now) →
      (Ledger.empty.exec env calls).Returns env ⟨.reconcile limit, now, scan⟩ (.reconciliation r) →
      Covers env scan (Ledger.empty.exec env calls) now limit.toNat →
      Reconciled env now (Ledger.empty.exec env (calls ++ [⟨.reconcile limit, now, scan⟩])) := by
  refine ⟨fun t hto => ?_, fun r hr hall hpend => ?_, fun limit now scan r hto hreturns hcovers => ?_⟩
  · obtain ⟨hs, hawake⟩ := awake_reachable env calls hclock hto
    exact .of_awake hs hawake
  · obtain ⟨parent, hparent, hnone⟩ := waits_reachable calls r hr hpend
    obtain ⟨p, hp, hpj, hpu, hps⟩ := hall parent hparent
    exact hnone p hp hpj hpu hps
  · obtain ⟨hs, hawake⟩ := awake_reachable env calls hclock hto
    obtain ⟨⟨r', d⟩, hbody, heq⟩ := map_eq_ok.mp (returns_body hreturns)
    obtain rfl := congrArg Prod.snd heq
    rw [exec_append, exec_cons]
    exact reconcile_repairs hs hawake hbody hcovers

/-! ### A worker that dies -/

def sampleEnv : Env Nat where
  uuid5 _ := 0
  uuidStr _ := []
  sha256 _ := List.replicate 64 '0'
  floatRepr _ := []
  divide _ _ := 0
  isPrintable _ := true
  leaseMicros := 10
  redeliveryMicros := 3
  orphanGraceMicros := 0
  delayMicros _ _ _ := 5

def sampleAdmission : Admission Nat :=
  { scope := ⟨0, 0⟩, documentId := 0, documentVersionId := 0
    source := ⟨⟨0, 0⟩, .source, 0, 0, List.replicate 64 '0', 1⟩
    requestIdempotencyKey := "key".toList, displayFilename := "a.txt".toList, mime := .textPlain
    profile := ⟨"1".toList, "1".toList, 1, 1, 1, 1, 1, false, ⟨2, 1, 1, 1, 0⟩⟩
    steps := [⟨"unit".toList, .extracting, "1".toList, List.replicate 64 '0', []⟩]
    resumeFrom := none }

/-- The step of a new job is claimed at time 100, for ten microseconds. -/
def sampleCalls : List (Call Nat) :=
  [⟨.admitJob sampleAdmission 1 2 fun n => n + 3, 100, .rowid⟩,
   ⟨.claim ⟨0, 0⟩ 1 3 "worker".toList, 100, .rowid⟩]

def sampleReconcile : Call Nat := ⟨.reconcile 1, 110, .rowid⟩

/-- At time 110 `reconcile` finds the lease expired, and the step waits to be tried again. -/
theorem no_lost_wakeup_sample :
    (Ledger.empty.exec sampleEnv (sampleCalls ++ [sampleReconcile])).steps.map StepRow.state
      = [.retryWait] ∧
    Announced 110 (Ledger.empty.exec sampleEnv (sampleCalls ++ [sampleReconcile])) ∧
    Reconciled sampleEnv 110 (Ledger.empty.exec sampleEnv (sampleCalls ++ [sampleReconcile])) := by
  have hbefore := no_lost_wakeup sampleEnv sampleCalls (by simp [sampleCalls])
  have hafter := no_lost_wakeup sampleEnv (sampleCalls ++ [sampleReconcile])
    (by simp [sampleCalls, sampleReconcile])
  refine ⟨by decide +kernel, hafter.1 110 (by simp [sampleCalls, sampleReconcile]), ?_⟩
  -- `reconcile` returns
  obtain ⟨⟨r, d⟩, hr⟩ : ∃ x, reconcile sampleEnv .rowid 1 110
      (Ledger.empty.exec sampleEnv sampleCalls) = .ok x := by
    have hok : (reconcile sampleEnv .rowid 1 110 (Ledger.empty.exec sampleEnv sampleCalls)).isOk
        = true := by decide +kernel
    cases hx : reconcile sampleEnv .rowid 1 110 (Ledger.empty.exec sampleEnv sampleCalls) with
    | error e =>
      rw [hx] at hok
      cases hok
    | ok x => exact ⟨x, rfl⟩
  refine hbefore.2.2 1 110 .rowid r (by simp [sampleCalls]) ?_ ⟨fun n => ?_, ?_⟩
  · have hbody : sampleReconcile.body sampleEnv (Ledger.empty.exec sampleEnv sampleCalls)
        = .ok (.reconciliation r, d) := map_eq_ok.mpr ⟨_, hr, rfl⟩
    unfold Ledger.Returns Ledger.step transaction
    rw [← sampleReconcile, hbody]
  · exact (List.length_take_le' n _).trans (by decide +kernel)
  · intro db₁ expired cutoff hloop hcutoff n
    refine (List.length_take_le' n _).trans ?_
    obtain rfl : 107 = cutoff := Except.ok.inj hcutoff
    have hkey : ((expiredRows .rowid (Ledger.empty.exec sampleEnv sampleCalls) 110 1).foldlM
        (reconcileExpired sampleEnv .rowid 110) (Ledger.empty.exec sampleEnv sampleCalls, 0)).map
          Prod.fst = .ok (Ledger.empty.exec sampleEnv (sampleCalls ++ [sampleReconcile])) := by
      decide +kernel
    have hdb : Except.ok db₁ = Except.ok _ := (congrArg (Except.map Prod.fst) hloop).symm.trans hkey
    rw [Except.ok.inj hdb]
    decide +kernel

end Polymind.Jobs
