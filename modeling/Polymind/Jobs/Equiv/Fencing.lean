import Polymind.Jobs.Equiv.Runs
import Mathlib.Data.List.Induction

/-!
# Lease fencing

* `Fenced`: the attempts of a step have distinct fences, a running step is held by the worker of
  the attempt with its fence, and a step has at most one manifest;
* `Passed`: a lease whose fence has been passed, or whose step is no longer running.  No lease
  operation accepts it, and it stays so along every run;
* `committed_history`: a manifest with a positive fence was recorded by one call of `commit`;
* `lease_fencing`: the fencing contract of the ledger.
-/

namespace Polymind.Jobs

variable {U : Type} [DecidableEq U] {env : Env U} {db db' : Ledger U} {now : Time}

/-! ### Attempts and holders -/

structure Fenced (db : Ledger U) : Prop where
  unique : ∀ a ∈ db.attempts, ∀ b ∈ db.attempts, a.stepId = b.stepId → a.fence = b.fence →
    a.worker = b.worker
  holder : ∀ r ∈ db.steps, r.state = .running →
    ∃ a ∈ db.attempts, a.stepId = r.stepId ∧ a.fence = r.fence ∧ some a.worker = r.leaseOwner
  manifestIds : (db.manifests.map ManifestRow.stepId).Nodup

omit [DecidableEq U] in
theorem Fenced.empty : Fenced (Ledger.empty : Ledger U) := by
  refine ⟨?_, ?_, ?_⟩ <;> simp [Ledger.empty]

omit [DecidableEq U] in
/-- Statements that start no attempt and leave the rows of running steps to their holders. -/
theorem Fenced.of_map (h : Fenced db) {k : AttemptRow U → AttemptRow U}
    (hattempts : db'.attempts = db.attempts.map k) (hk : ∀ a, AttemptEvolves a (k a))
    (hsteps : ∀ r' ∈ db'.steps, r'.state = .running → ∃ r ∈ db.steps, r.state = .running ∧
      r'.stepId = r.stepId ∧ r'.fence = r.fence ∧ r'.leaseOwner = r.leaseOwner)
    (hmanifests : (db'.manifests.map ManifestRow.stepId).Nodup) : Fenced db' := by
  refine ⟨?_, ?_, hmanifests⟩
  · rw [hattempts]
    intro a ha b hb hid hfence
    obtain ⟨a₀, ha₀, rfl⟩ := List.mem_map.mp ha
    obtain ⟨b₀, hb₀, rfl⟩ := List.mem_map.mp hb
    rw [(hk a₀).stepId, (hk b₀).stepId] at hid
    rw [(hk a₀).fence, (hk b₀).fence] at hfence
    rw [(hk a₀).worker, (hk b₀).worker]
    exact h.unique a₀ ha₀ b₀ hb₀ hid hfence
  · intro r' hr' hrun
    obtain ⟨r, hr, hrun₀, hid, hfence, howner⟩ := hsteps r' hr' hrun
    obtain ⟨a, ha, h1, h2, h3⟩ := h.holder r hr hrun₀
    refine ⟨k a, by rw [hattempts]; exact List.mem_map_of_mem ha, ?_, ?_, ?_⟩
    · rw [(hk a).stepId, h1, hid]
    · rw [(hk a).fence, h2, hfence]
    · rw [(hk a).worker, h3, howner]

omit [DecidableEq U] in
/-- The rows of running steps are untouched by a map that only ends steps. -/
theorem running_of_map {g : StepRow U → StepRow U} {rows : List (StepRow U)}
    (hg : ∀ r ∈ rows, (g r).state = .running → g r = r) :
    ∀ r' ∈ rows.map g, r'.state = .running → ∃ r ∈ rows, r.state = .running ∧
      r'.stepId = r.stepId ∧ r'.fence = r.fence ∧ r'.leaseOwner = r.leaseOwner := by
  intro r' hr' hrun
  obtain ⟨r, hr, rfl⟩ := List.mem_map.mp hr'
  have he := hg r hr hrun
  exact ⟨r, hr, he ▸ hrun, by rw [he], by rw [he], by rw [he]⟩

theorem cancelRow_running {stepIds : List U} {r : StepRow U}
    (h : (cancelRow now stepIds r).state = .running) : cancelRow now stepIds r = r := by
  unfold cancelRow at h ⊢
  split
  · rename_i hm
    rw [if_pos hm] at h
    cases h
  · rfl

theorem failRow_running {row r : StepRow U} {category : Category}
    (h : (failRow now row category r).state = .running) : failRow now row category r = r := by
  unfold failRow at h ⊢
  split
  · rename_i hid
    rw [if_pos hid] at h
    cases h
  · rename_i hid
    rw [if_neg hid] at h
    split
    · rename_i hs
      rw [if_pos hs] at h
      cases h
    · rfl

theorem Fenced.terminalFailure (hinv : Inv db) (h : Fenced db) (scan : Scan U) (row : StepRow U)
    {k : AttemptRow U → AttemptRow U} (hk : ∀ a, AttemptEvolves a (k a)) (now : Time)
    (category : Category) (classification : Classification) :
    Fenced (refresh scan (terminalFailure scan { db with attempts := db.attempts.map k } row
      category classification now) row.jobId now) := by
  rw [terminalFailure_eq scan { db with attempts := db.attempts.map k } row category classification
    now hinv.stepIds]
  refine h.of_map (k := _ ∘ k) (List.map_map ..)
    (fun a => (hk a).trans (attemptEvolves_cancelAttempt _)) ?_ h.manifestIds
  exact running_of_map fun r _ => failRow_running

/-- Every transition keeps the fencing invariant. -/
theorem fenced_transition (hinv : Inv db) (h : Fenced db) (ht : Transition env now db db') :
    Fenced db' := by
  have hid : ∀ a : AttemptRow U, AttemptEvolves a (id a) := AttemptEvolves.refl
  have hsame : ∀ r' ∈ db.steps, r'.state = .running → ∃ r ∈ db.steps, r.state = .running ∧
      r'.stepId = r.stepId ∧ r'.fence = r.fence ∧ r'.leaseOwner = r.leaseOwner :=
    fun r hr hrun => ⟨r, hr, hrun, rfl, rfl, rfl⟩
  cases ht with
  | admitted scan jobId _ row new copies ha =>
    obtain ⟨objects, outbox, seq, rfl⟩ := ha.result
    refine h.of_map (List.map_id _).symm hid ?_ (ha.manifestIds h.manifestIds)
    intro r hr hrun
    rcases List.mem_append.mp hr with hr | hr
    · exact ⟨r, hr, hrun, rfl, rfl, rfl⟩
    · rcases (ha.planned r hr).state with hs | hs | hs <;> rw [hs] at hrun <;> cases hrun
  | retried scan job row fault retryAt _ _ _ _ =>
    refine h.of_map rfl attemptEvolves_closeAttempt (running_of_map fun r _ hrun => ?_) h.manifestIds
    unfold retryRow at hrun ⊢
    split
    · rename_i hr
      rw [if_pos hr] at hrun
      cases hrun
    · rfl
  | failed scan job row fault category _ _ =>
    exact h.terminalFailure hinv scan row attemptEvolves_closeAttempt now category
      fault.classification
  | spent scan job row _ _ =>
    have hf := h.terminalFailure hinv scan row hid now .retryExhausted .nonRetryable
    rwa [List.map_id] at hf
  | started scan job row owner expires _ _ _ _ hfresh =>
    refine ⟨?_, ?_, h.manifestIds⟩
    · -- the new attempt has a fence of its own
      intro a ha b hb hab hfence
      rcases List.mem_append.mp ha with ha | ha <;> rcases List.mem_append.mp hb with hb | hb
      · exact h.unique a ha b hb hab hfence
      · rw [List.mem_singleton.mp hb] at hab hfence
        exact absurd hfence (hfresh a ha hab).2
      · rw [List.mem_singleton.mp ha] at hab hfence
        exact absurd hfence.symm (hfresh b hb hab.symm).2
      · rw [List.mem_singleton.mp ha, List.mem_singleton.mp hb]
    · intro r' hr' hrun
      obtain ⟨r, hr, rfl⟩ := List.mem_map.mp hr'
      by_cases hrow : r.stepId = row.stepId
      · refine ⟨startAttempt now row owner, List.mem_append_right _ (List.mem_singleton.mpr rfl), ?_⟩
        unfold startRow
        rw [if_pos hrow]
        exact ⟨hrow.symm, rfl, rfl⟩
      · unfold startRow at hrun ⊢
        rw [if_neg hrow] at hrun ⊢
        obtain ⟨a, ha, hrest⟩ := h.holder r hr hrun
        exact ⟨a, List.mem_append_left _ ha, hrest⟩
  | renewed lease job row expires _ =>
    refine h.of_map (List.map_id _).symm hid ?_ h.manifestIds
    intro r' hr' hrun
    obtain ⟨r, hr, rfl⟩ := List.mem_map.mp hr'
    refine ⟨r, hr, ?_⟩
    unfold renewRow at hrun ⊢
    split at hrun <;> exact ⟨hrun, by simp [*], by simp [*], by simp [*]⟩
  | registered lease job row ref _ =>
    unfold Ledger.insertIntent
    split
    · exact h
    · exact ⟨h.unique, h.holder, h.manifestIds⟩
  | committed scan lease refs job row db₁ hc _ hnew hact =>
    obtain ⟨g, outbox, seq, rfl, hg⟩ :=
      activate_spec (by exact nodup_commitRow hinv lease.stepId) hact
    refine h.of_map rfl attemptEvolves_commitAttempt ?_ (nodup_concat_of_not_mem h.manifestIds hnew)
    intro r' hr' hrun
    obtain ⟨r₁, hr₁, rfl⟩ := List.mem_map.mp hr'
    have hsame₁ : g r₁ = r₁ := by
      rcases hg r₁ hr₁ with he | ⟨-, -, key, inputs, he⟩
      · exact he
      · rw [he] at hrun
        cases hrun
    rw [hsame₁] at hrun ⊢
    refine running_of_map (fun r _ hs => ?_) r₁ hr₁ hrun
    unfold commitRow at hs ⊢
    split
    · rename_i hr
      rw [if_pos hr] at hs
      cases hs
    · rfl
  | cancelled scan job _ _ =>
    rw [cancelJob_eq]
    exact h.of_map rfl attemptEvolves_cancelAttempt (running_of_map fun r _ => cancelRow_running)
      h.manifestIds
  | abandoned scan job row _ _ =>
    rw [cancelStep_eq, cancelJob_eq]
    refine h.of_map (List.map_map ..)
      (fun a => (attemptEvolves_cancelAttempt a).trans (attemptEvolves_cancelAttempt _)) ?_
      h.manifestIds
    intro r' hr' hrun
    obtain ⟨r₁, hr₁, h1, h2, h3, h4⟩ := running_of_map (fun r _ => cancelRow_running) r' hr' hrun
    obtain ⟨r, hr, h1', h2', h3', h4'⟩ := running_of_map (fun r _ => cancelRow_running) r₁ hr₁ h1
    exact ⟨r, hr, h1', h2.trans h2', h3.trans h3', h4.trans h4'⟩
  | settled scan job row _ _ _ _ _ =>
    rw [cancelStep_eq]
    exact h.of_map rfl attemptEvolves_cancelAttempt (running_of_map fun r _ => cancelRow_running)
      h.manifestIds
  | enqueued => exact ⟨h.unique, h.holder, h.manifestIds⟩
  | delivered => exact ⟨h.unique, h.holder, h.manifestIds⟩

/-! ### Which calls record manifests -/

theorem terminalFailure_manifests (scan : Scan U) (db : Ledger U) (row : StepRow U)
    (category : Category) (classification : Classification) (now : Time) :
    (terminalFailure scan db row category classification now).manifests = db.manifests := by
  unfold terminalFailure
  simp only [foldl_cancelStep]
  unfold Ledger.insertDeadLetter
  split <;> rfl

theorem failure_manifests {scan : Scan U} {job : JobRow U} {row : StepRow U}
    {fault : SanitizedFailure} (h : failure env scan db job row fault now = .ok db') :
    db'.manifests = db.manifests := by
  rcases failure_ok h with ⟨retryAt, -, -, rfl⟩ | ⟨category, rfl⟩
  · rfl
  · exact terminalFailure_manifests ..

theorem claimReady_manifests {scan : Scan U} {job : JobRow U} {row : StepRow U} {scope : Scope U}
    {owner : Str} {hOwner : isToken owner = true} {lease : Option (Lease U)}
    (h : claimReady env scan db job row scope owner hOwner now = .ok (lease, db')) :
    db'.manifests = db.manifests := by
  unfold claimReady at h
  rw [bind_eq_ok] at h
  obtain ⟨spent, -, h⟩ := h
  cases spent with
  | true =>
    simp only [if_true, Except.ok.injEq, Prod.mk.injEq] at h
    rw [← h.2]
    exact terminalFailure_manifests ..
  | false =>
    simp only [Bool.false_eq_true, if_false, bind_eq_ok, Except.ok.injEq, Prod.mk.injEq] at h
    obtain ⟨expires, -, d, hd, -, rfl⟩ := h
    obtain ⟨rfl, -⟩ := insertAttempt_ok hd
    rfl

theorem claim_manifests {scan : Scan U} {scope : Scope U} {jobId stepId : U} {owner : Str}
    {lease : Option (Lease U)}
    (h : claim env scan scope jobId stepId owner now db = .ok (lease, db')) :
    db'.manifests = db.manifests := by
  unfold claim at h
  split at h
  · simp only [bind_eq_ok] at h
    obtain ⟨job, -, row, -, h⟩ := h
    split at h
    · cases h
      rfl
    · rw [bind_eq_ok] at h
      obtain ⟨db₁, hsettle, h⟩ := h
      have h₁ : db₁.manifests = db.manifests := by
        unfold settleExpired at hsettle
        split at hsettle
        · exact failure_manifests hsettle
        · cases hsettle
          rfl
      rw [bind_eq_ok] at h
      obtain ⟨row₁, -, h⟩ := h
      split at h
      · cases h
        exact h₁
      · rw [claimReady_manifests h, h₁]
  · cases h

theorem reconcile_manifests {scan : Scan U} {limit : Int} {r : Reconciliation}
    (h : reconcile env scan limit now db = .ok (r, db')) : db'.manifests = db.manifests := by
  unfold reconcile at h
  simp only [bind_eq_ok] at h
  obtain ⟨n, -, ⟨db₁, expired⟩, hloop, cutoff, -, candidates, -, h⟩ := h
  have h₁ : db₁.manifests = db.manifests := by
    refine foldlM_ok_induction (fun s => s.1.manifests = db.manifests) hloop rfl ?_
    rintro row - ⟨d, k⟩ ⟨d', k'⟩ hd hstep
    unfold reconcileExpired at hstep
    simp only [bind_eq_ok] at hstep
    obtain ⟨row₁, -, hstep⟩ := hstep
    split at hstep
    · cases hstep
      exact hd
    · split at hstep
      · cases hstep
      · split at hstep
        · cases hstep
          exact hd
        · rw [bind_eq_ok] at hstep
          obtain ⟨d₁, hd₁, hstep⟩ := hstep
          cases hstep
          exact (failure_manifests hd₁).trans hd
  simp only [Except.ok.injEq, Prod.mk.injEq] at h
  obtain ⟨-, rfl⟩ := h
  rw [← h₁]
  have henq : ∀ (rows : List (StepRow U)) (d : Ledger U),
      (rows.foldl (fun db row => db.enqueue row.stepId now now) d).manifests = d.manifests := by
    intro rows
    induction rows with
    | nil => exact fun d => rfl
    | cons row rows ih => exact fun d => ih _
  have hrep : ∀ (rows : List (StepRow U)) (d : Ledger U),
      (rows.foldl (fun db row => refresh scan (cancelStep now db row) row.jobId now) d).manifests
        = d.manifests := by
    intro rows
    induction rows with
    | nil => exact fun d => rfl
    | cons row rows ih => exact fun d => ih _
  rw [henq, hrep]

/-- What a call adds to the manifests: nothing, copies of an admission, or the one it commits. -/
theorem step_manifests (env : Env U) (hinv : Inv db) (c : Call U) :
    (∃ copies, (db.step env c).2.manifests = db.manifests ++ copies ∧ ∀ m ∈ copies, m.fence = 0) ∨
    ∃ lease refs row job row₀, c.op = .commit lease refs ∧ (db.step env c).1 = .ok (.step row) ∧
      (db.step env c).2.manifests = db.manifests ++ [⟨lease.stepId, refs, c.now, lease.fence⟩] ∧
      intentsHold db lease.stepId refs = true ∧
      lease.stepId ∉ db.manifests.map ManifestRow.stepId ∧
      checkLease env db lease c.now false = .ok (job, row₀) := by
  have hnone : ∀ d : Ledger U, d.manifests = db.manifests →
      ∃ copies, d.manifests = db.manifests ++ copies ∧ ∀ m ∈ copies, m.fence = 0 :=
    fun d hd => ⟨[], by simp [hd], by simp⟩
  unfold Ledger.step transaction
  split
  · rename_i a d hbody
    unfold Call.body at hbody
    split at hbody <;> rw [map_eq_ok] at hbody
    · left
      obtain ⟨⟨job, d₁⟩, hd, h⟩ := hbody
      cases h
      rcases admitJob_spec hinv.stepIds hinv.owned hd with rfl | ⟨row, new, copies, -, ha⟩
      · exact hnone _ rfl
      · obtain ⟨objects, outbox, seq, rfl⟩ := ha.result
        exact ⟨copies, rfl, ha.copied⟩
    · obtain ⟨⟨lease, d₁⟩, hd, h⟩ := hbody
      cases h
      exact Or.inl (hnone _ (claim_manifests hd))
    · obtain ⟨d₁, hd, h⟩ := hbody
      cases h
      unfold renew at hd
      simp only [bind_eq_ok, Except.ok.injEq] at hd
      obtain ⟨x, -, expires, -, rfl⟩ := hd
      exact Or.inl (hnone _ rfl)
    · obtain ⟨d₁, hd, h⟩ := hbody
      cases h
      have hintent : ∀ x, (db.insertIntent x).manifests = db.manifests := by
        intro x
        unfold Ledger.insertIntent
        split <;> rfl
      unfold registerObject at hd
      simp only [ite_error_eq_ok, bind_eq_ok] at hd
      obtain ⟨-, -, x, -, hd⟩ := hd
      split at hd
      · rw [ite_error_eq_ok] at hd
        cases hd.2
        exact Or.inl (hnone _ (hintent _))
      · cases hd
        exact Or.inl (hnone _ (hintent _))
    · rename_i lease refs hop
      obtain ⟨⟨row, d₁⟩, hd, h⟩ := hbody
      cases h
      rcases commit_ok hd with ⟨rfl, -⟩ | ⟨-, job, row₀, db₁, hc, hintents, hnew, hact, rfl⟩
      · exact Or.inl (hnone _ rfl)
      · right
        obtain ⟨g, outbox, seq, rfl, -⟩ :=
          activate_spec (by exact nodup_commitRow hinv lease.stepId) hact
        exact ⟨lease, refs, row, job, row₀, hop, rfl, rfl, hintents, hnew, hc⟩
    · obtain ⟨d₁, hd, h⟩ := hbody
      cases h
      unfold fail at hd
      simp only [bind_eq_ok] at hd
      obtain ⟨⟨job, row⟩, -, hd⟩ := hd
      simp only at hd
      split at hd
      · cases hd
        rw [cancelStep_eq, cancelJob_eq]
        exact Or.inl (hnone _ rfl)
      · exact Or.inl (hnone _ (failure_manifests hd))
    · obtain ⟨⟨job, d₁⟩, hd, h⟩ := hbody
      cases h
      unfold cancel at hd
      simp only [bind_eq_ok] at hd
      obtain ⟨job₀, -, hd⟩ := hd
      split at hd
      · cases hd
        exact Or.inl (hnone _ rfl)
      · simp only [bind_eq_ok, Except.ok.injEq, Prod.mk.injEq] at hd
        obtain ⟨job₁, -, -, rfl⟩ := hd
        rw [cancelJob_eq]
        exact Or.inl (hnone _ rfl)
    · obtain ⟨d₁, hd, h⟩ := hbody
      cases h
      unfold settleCancel at hd
      simp only [bind_eq_ok] at hd
      obtain ⟨⟨job, row⟩, -, hd⟩ := hd
      simp only [ite_error_eq_ok, Except.ok.injEq] at hd
      obtain ⟨-, rfl⟩ := hd
      exact Or.inl (hnone _ rfl)
    · obtain ⟨d₁, hd, h⟩ := hbody
      cases h
      unfold markDelivered at hd
      simp only [bind_eq_ok] at hd
      obtain ⟨job, -, row, -, hd⟩ := hd
      split at hd
      · cases hd
        exact Or.inl (hnone _ rfl)
      · cases hd
    · obtain ⟨⟨r, d₁⟩, hd, h⟩ := hbody
      cases h
      exact Or.inl (hnone _ (reconcile_manifests hd))
  · exact Or.inl (hnone _ rfl)

/-! ### Histories -/

/-- The call `c` returns `a`. -/
def Ledger.Returns (env : Env U) (db : Ledger U) (c : Call U) (a : Answer U) : Prop :=
  (db.step env c).1 = .ok a

/-- The call `c` raises and leaves every table unchanged. -/
def Ledger.Refuses (env : Env U) (db : Ledger U) (c : Call U) : Prop :=
  ∃ e, db.step env c = (.error e, db)

/-- A call of the history committed the manifest `refs` of the step, for this owner and fence. -/
def CommittedBy (env : Env U) (calls : List (Call U)) (stepId : U) (owner : Str) (fence : Nat)
    (refs : List (ObjectRef U)) : Prop :=
  ∃ pre c post lease row, calls = pre ++ c :: post ∧ c.op = .commit lease refs ∧
    lease.stepId = stepId ∧ lease.owner = owner ∧ lease.fence = fence ∧
    (Ledger.empty.exec env pre).Returns env c (.step row) ∧
    stepId ∉ (Ledger.empty.exec env pre).manifests.map ManifestRow.stepId

/-- A lease that came too late: the history has issued a later fence for its step, or it issued
the lease and the step has left `RUNNING` since. -/
inductive Stale (env : Env U) (lease : Lease U) (calls : List (Call U)) : Prop where
  | passed (pre post : List (Call U)) (c : Call U) (later : Lease U)
      (hcalls : calls = pre ++ c :: post)
      (hreturns : (Ledger.empty.exec env pre).Returns env c (.lease (some later)))
      (hstep : later.stepId = lease.stepId) (hfence : lease.fence < later.fence)
  | left (pre mid rest : List (Call U)) (c : Call U) (row : StepRow U)
      (hcalls : calls = pre ++ c :: (mid ++ rest))
      (hreturns : (Ledger.empty.exec env pre).Returns env c (.lease (some lease)))
      (hrow : row ∈ (Ledger.empty.exec env (pre ++ c :: mid)).steps)
      (hstep : row.stepId = lease.stepId) (hstate : row.state ≠ .running)

/-- The operations other than `commit` that present a lease. -/
def Op.presents (lease : Lease U) : Op U → Prop
  | .renew l | .fail l _ | .registerObject l _ | .settleCancel l => l = lease
  | _ => False

theorem inv_reachable (calls : List (Call U)) : Inv (Ledger.empty.exec env calls) :=
  inv_exec calls Inv.empty

theorem fenced_reachable (calls : List (Call U)) : Fenced (Ledger.empty.exec env calls) :=
  (exec_invariant Fenced (fun _ _ _ hi hf ht => fenced_transition hi hf ht) calls Inv.empty
    Fenced.empty).2

/-- What a call returns, its body computes. -/
theorem returns_body {c : Call U} {a : Answer U} (h : db.Returns env c a) :
    c.body env db = .ok (a, (db.step env c).2) := by
  unfold Ledger.Returns Ledger.step transaction at h
  unfold Ledger.step transaction
  cases hb : c.body env db with
  | error e =>
    rw [hb] at h
    cases h
  | ok x =>
    rw [hb] at h
    obtain ⟨b, d⟩ := x
    rw [Except.ok.inj h]

/-- A call that returns a lease gives its step a fence above every earlier one. -/
theorem returns_lease (hinv : Inv db) {c : Call U} {lease : Lease U}
    (h : db.Returns env c (.lease (some lease))) :
    (∃ r ∈ (db.step env c).2.steps, r.stepId = lease.stepId ∧ r.fence = lease.fence) ∧
    ∀ r ∈ db.steps, r.stepId = lease.stepId → r.fence < lease.fence := by
  obtain ⟨d, hd, hstate⟩ : ∃ d, c.body env db = .ok (.lease (some lease), d)
      ∧ (db.step env c).2 = d := ⟨_, returns_body h, rfl⟩
  unfold Call.body at hd
  split at hd <;> rw [map_eq_ok] at hd <;> obtain ⟨x, hx, hxa⟩ := hd <;>
    simp only [Prod.mk.injEq, Answer.lease.injEq, reduceCtorEq, false_and] at hxa
  rename_i scope jobId stepId owner hop
  obtain ⟨lease', d'⟩ := x
  obtain ⟨rfl, rfl⟩ := hxa
  obtain ⟨hid, howner, db₁, row, expires, hchain, hrow, hrid, -, hfence, rfl⟩ :=
    (claim_ok hinv hx).2 lease rfl
  rw [hstate]
  refine ⟨⟨startRow c.now row owner expires row, List.mem_map_of_mem hrow, ?_⟩, ?_⟩
  · unfold startRow
    rw [if_pos rfl]
    exact ⟨hrid.trans hid.symm, hfence.symm⟩
  · intro r hr hrs
    obtain ⟨r₁, hr₁, hev⟩ := (evolves_chain hinv hchain).steps r hr
    have hsame : r₁ = row := by
      refine eq_of_stepId_eq (inv_chain hinv hchain).stepIds hr₁ hrow ?_
      rw [hev.stepId, hrs, hid, hrid]
    have := hev.fence
    rw [hsame] at this
    omega

/-- The lease is of a fence that was passed, or its step is not running. -/
def Passed (db : Ledger U) (lease : Lease U) : Prop :=
  ∀ r ∈ db.steps, r.stepId = lease.stepId → lease.fence < r.fence ∨ r.state ≠ .running

theorem passed_of_row (hinv : Inv db') (hev : Evolves db db') {lease : Lease U} {r : StepRow U}
    (hr : r ∈ db.steps) (hid : r.stepId = lease.stepId)
    (h : lease.fence < r.fence ∨ (lease.fence ≤ r.fence ∧ r.state ≠ .running)) :
    Passed db' lease := by
  obtain ⟨r', hr', hrow⟩ := hev.steps r hr
  intro s hs hsid
  have hsr : s = r' := by
    refine eq_of_stepId_eq hinv.stepIds hs hr' ?_
    rw [hsid, hrow.stepId, hid]
  rw [hsr]
  have hfence := hrow.fence
  rcases h with h | ⟨hle, hrun⟩
  · exact Or.inl (by omega)
  · by_cases he : r'.fence = r.fence
    · exact Or.inr fun hrun' => hrun (hrow.running he hrun').1
    · exact Or.inl (by omega)

theorem passed_of_stale {lease : Lease U} {calls : List (Call U)} (h : Stale env lease calls) :
    Passed (Ledger.empty.exec env calls) lease := by
  cases h with
  | passed pre post c later hcalls hreturns hstep hfence =>
    obtain ⟨⟨r, hr, hid, hrf⟩, -⟩ := returns_lease (inv_reachable pre) hreturns
    have hinv : Inv (Ledger.empty.exec env (pre ++ [c])) := inv_reachable _
    rw [hcalls, show pre ++ c :: post = (pre ++ [c]) ++ post by simp, exec_append]
    have hr' : r ∈ (Ledger.empty.exec env (pre ++ [c])).steps := by
      rw [exec_append]
      exact hr
    exact passed_of_row (inv_exec post hinv) (evolves_exec post hinv) hr' (hid.trans hstep)
      (Or.inl (by omega))
  | left pre mid rest c row hcalls hreturns hrow hstep hstate =>
    obtain ⟨⟨r, hr, hid, hrf⟩, -⟩ := returns_lease (inv_reachable pre) hreturns
    have hinv : Inv (Ledger.empty.exec env (pre ++ [c])) := inv_reachable _
    have hinv' : Inv (Ledger.empty.exec env (pre ++ c :: mid)) := inv_reachable _
    -- the fence of the row is at least the one that was issued
    have hle : lease.fence ≤ row.fence := by
      have hev : Evolves (Ledger.empty.exec env (pre ++ [c]))
          (Ledger.empty.exec env (pre ++ c :: mid)) := by
        rw [show pre ++ c :: mid = (pre ++ [c]) ++ mid by simp, exec_append (pre ++ [c]) mid]
        exact evolves_exec mid hinv
      have hr' : r ∈ (Ledger.empty.exec env (pre ++ [c])).steps := by
        rw [exec_append]
        exact hr
      obtain ⟨r', hr'', hrow'⟩ := hev.steps r hr'
      have hsame : r' = row := by
        refine eq_of_stepId_eq hinv'.stepIds hr'' hrow ?_
        rw [hrow'.stepId, hid, hstep]
      have := hrow'.fence
      rw [hsame] at this
      omega
    rw [hcalls, show pre ++ c :: (mid ++ rest) = (pre ++ c :: mid) ++ rest by simp, exec_append]
    exact passed_of_row (inv_exec rest hinv') (evolves_exec rest hinv') hrow hstep
      (Or.inr ⟨hle, hstate⟩)

/-- No lease operation accepts a lease that was passed. -/
theorem not_checkLease {lease : Lease U} (h : Passed db lease) {settling : Bool}
    {x : JobRow U × StepRow U} : checkLease env db lease now settling ≠ .ok x := by
  intro hc
  obtain ⟨-, hrow, hfence, -, hrun, -⟩ := checkLease_ok hc
  obtain ⟨hr, hid, -⟩ := findStep_ok hrow
  rcases h x.2 hr hid with hlt | hne
  · omega
  · exact hne hrun

theorem refuses_of_not_ok {c : Call U} (h : ∀ x, c.body env db ≠ .ok x) : db.Refuses env c := by
  unfold Ledger.Refuses Ledger.step transaction
  cases hb : c.body env db with
  | error e => exact ⟨e, rfl⟩
  | ok x => exact absurd hb (h x)

theorem refuses_of_passed {lease : Lease U} (h : Passed db lease) {op : Op U}
    (hop : op.presents lease) (now : Time) (scan : Scan U) : db.Refuses env ⟨op, now, scan⟩ := by
  refine refuses_of_not_ok fun x hx => ?_
  unfold Call.body at hx
  cases op with
  | renew l =>
    obtain rfl : l = lease := hop
    obtain ⟨d, hd, -⟩ := map_eq_ok.mp hx
    unfold renew at hd
    rw [bind_eq_ok] at hd
    obtain ⟨y, hy, -⟩ := hd
    exact not_checkLease h hy
  | fail l fault =>
    obtain rfl : l = lease := hop
    obtain ⟨d, hd, -⟩ := map_eq_ok.mp hx
    unfold fail at hd
    simp only [bind_eq_ok] at hd
    obtain ⟨y, hy, -⟩ := hd
    exact not_checkLease h hy
  | registerObject l ref =>
    obtain rfl : l = lease := hop
    obtain ⟨d, hd, -⟩ := map_eq_ok.mp hx
    unfold registerObject at hd
    simp only [ite_error_eq_ok, bind_eq_ok] at hd
    obtain ⟨-, -, y, hy, -⟩ := hd
    exact not_checkLease h hy
  | settleCancel l =>
    obtain rfl : l = lease := hop
    obtain ⟨d, hd, -⟩ := map_eq_ok.mp hx
    unfold settleCancel at hd
    simp only [bind_eq_ok] at hd
    obtain ⟨y, hy, -⟩ := hd
    exact not_checkLease h hy
  | admitJob | claim | commit | cancel | markDelivered | reconcile => cases hop

/-- A manifest with a positive fence was recorded by a call of `commit`, whose worker is the one of
the attempt with that fence. -/
theorem committed_history (calls : List (Call U)) {m : ManifestRow U}
    (hm : m ∈ (Ledger.empty.exec env calls).manifests) (hpos : 0 < m.fence) :
    ∃ owner, CommittedBy env calls m.stepId owner m.fence m.manifest ∧
      ∃ a ∈ (Ledger.empty.exec env calls).attempts, a.stepId = m.stepId ∧ a.fence = m.fence ∧
        a.worker = owner := by
  -- by induction on the history, looking at its last call
  induction calls using List.reverseRecOn with
  | nil => simp [Ledger.exec, Ledger.empty] at hm
  | append_singleton calls c ih =>
    have hinv : Inv (Ledger.empty.exec env calls) := inv_reachable calls
    have hlast : Ledger.empty.exec env (calls ++ [c])
        = ((Ledger.empty.exec env calls).step env c).2 := exec_append calls [c]
    have hev : Evolves (Ledger.empty.exec env calls) (Ledger.empty.exec env (calls ++ [c])) := by
      rw [exec_append]
      exact evolves_exec [c] hinv
    by_cases hold : m ∈ (Ledger.empty.exec env calls).manifests
    · obtain ⟨owner, ⟨pre, c₀, post, lease, row, hcalls, hrest⟩, a, ha, hid, hfence, hworker⟩ := ih hold
      obtain ⟨a', ha', haev⟩ := hev.attempts a ha
      refine ⟨owner, ⟨pre, c₀, post ++ [c], lease, row, by simp [hcalls], hrest⟩, a', ha', ?_, ?_, ?_⟩
      · rw [haev.stepId, hid]
      · rw [haev.fence, hfence]
      · rw [haev.worker, hworker]
    · rw [hlast] at hm
      have hstep := step_manifests env hinv c
      rcases hstep with
        ⟨copies, heq, hzero⟩ | ⟨lease, refs, row, job, row₀, hop, hret, heq, -, hnew, hcheck⟩
      · -- copies of an admission carry the fence zero
        rw [heq] at hm
        rcases List.mem_append.mp hm with hm | hm
        · exact absurd hm hold
        · rw [hzero m hm] at hpos
          omega
      · rw [heq] at hm
        rcases List.mem_append.mp hm with hm | hm
        · exact absurd hm hold
        · rw [List.mem_singleton.mp hm]
          refine ⟨lease.owner, ⟨calls, c, [], lease, row, rfl, hop, rfl, rfl, rfl, hret, hnew⟩, ?_⟩
          -- the step was running for this owner, so the attempt is the owner's
          obtain ⟨-, hrow, hfence, howner, hrun, -⟩ := checkLease_ok hcheck
          obtain ⟨hr, hid, -⟩ := findStep_ok hrow
          obtain ⟨a, ha, h1, h2, h3⟩ := (fenced_reachable calls).holder row₀ hr hrun
          obtain ⟨a', ha', haev⟩ := hev.attempts a ha
          refine ⟨a', ha', ?_, ?_, ?_⟩
          · rw [haev.stepId, h1, hid]
          · rw [haev.fence, h2, hfence]
          · rw [haev.worker]
            exact Option.some.inj (h3.trans howner)

/-- What `commit` does with a lease that was passed. -/
theorem commit_of_passed {calls : List (Call U)} {lease : Lease U}
    (h : Passed (Ledger.empty.exec env calls) lease) (refs : List (ObjectRef U)) (now : Time)
    (scan : Scan U) :
    (Ledger.empty.exec env calls).Refuses env ⟨.commit lease refs, now, scan⟩ ∨
    (∃ row, (Ledger.empty.exec env calls).step env ⟨.commit lease refs, now, scan⟩
        = (.ok (.step row), Ledger.empty.exec env calls)) ∧
      CommittedBy env calls lease.stepId lease.owner lease.fence refs := by
  cases hc : commit env scan lease refs now (Ledger.empty.exec env calls) with
  | error e =>
    left
    refine refuses_of_not_ok fun x hx => ?_
    simp only [Call.body, hc, Except.map] at hx
    cases hx
  | ok x =>
    right
    obtain ⟨row, d⟩ := x
    rcases commit_ok hc with ⟨rfl, -, -, ⟨m, hm, h1, h2, h3⟩, a, ha, h4, h5, h6⟩ | ⟨-, job, row₀, -, hcheck, -⟩
    · refine ⟨⟨row, by simp only [Ledger.step, transaction, Call.body, hc, Except.map]⟩, ?_⟩
      obtain ⟨owner, hby, b, hb, h7, h8, h9⟩ := committed_history calls hm (by rw [h2]; exact lease.fence_pos)
      have hworker : owner = lease.owner := by
        rw [← h9, ← h6]
        refine (fenced_reachable calls).unique b hb a ha ?_ ?_
        · rw [h7, h1, h4]
        · rw [h8, h2, h5]
      rw [h1, h2, h3, hworker] at hby
      exact hby
    · exact absurd hcheck (not_checkLease h)

/-- Lease fencing, over every history of calls from an empty ledger: fences of a step strictly
increase; at most one owner and fence of a step passes `_check_lease`; a lease that came too late
is refused, except that `commit` confirms the manifest this very lease committed; and a step has
at most one manifest, which stays. -/
theorem lease_fencing (env : Env U) :
    (∀ (pre mid : List (Call U)) (c c' : Call U) (lease lease' : Lease U),
      (Ledger.empty.exec env pre).Returns env c (.lease (some lease)) →
      (Ledger.empty.exec env (pre ++ c :: mid)).Returns env c' (.lease (some lease')) →
      lease.stepId = lease'.stepId → lease.fence < lease'.fence) ∧
    (∀ (calls : List (Call U)) (lease lease' : Lease U) (now now' : Time) (settling settling' : Bool)
      (x x' : JobRow U × StepRow U),
      checkLease env (Ledger.empty.exec env calls) lease now settling = .ok x →
      checkLease env (Ledger.empty.exec env calls) lease' now' settling' = .ok x' →
      lease.stepId = lease'.stepId → lease.owner = lease'.owner ∧ lease.fence = lease'.fence) ∧
    (∀ (calls : List (Call U)) (lease : Lease U), Stale env lease calls →
      ∀ (now : Time) (scan : Scan U),
        (∀ op, Op.presents lease op → (Ledger.empty.exec env calls).Refuses env ⟨op, now, scan⟩) ∧
        ∀ refs, (Ledger.empty.exec env calls).Refuses env ⟨.commit lease refs, now, scan⟩ ∨
          (∃ row, (Ledger.empty.exec env calls).step env ⟨.commit lease refs, now, scan⟩
              = (.ok (.step row), Ledger.empty.exec env calls)) ∧
            CommittedBy env calls lease.stepId lease.owner lease.fence refs) ∧
    ∀ calls : List (Call U),
      ((Ledger.empty.exec env calls).manifests.map ManifestRow.stepId).Nodup ∧
      ∀ more, (Ledger.empty.exec env calls).manifests
        <+: (Ledger.empty.exec env (calls ++ more)).manifests := by
  refine ⟨?_, ?_, ?_, ?_⟩
  · intro pre mid c c' lease lease' h h' hid
    obtain ⟨⟨r, hr, hrid, hfence⟩, -⟩ := returns_lease (inv_reachable pre) h
    obtain ⟨-, hlt⟩ := returns_lease (inv_reachable (pre ++ c :: mid)) h'
    have hinv : Inv ((Ledger.empty.exec env pre).step env c).2 :=
      inv_exec [c] (inv_reachable pre)
    have hev : Evolves ((Ledger.empty.exec env pre).step env c).2
        (Ledger.empty.exec env (pre ++ c :: mid)) := by
      rw [exec_append, exec_cons]
      exact evolves_exec mid hinv
    obtain ⟨r', hr', hrow⟩ := hev.steps r hr
    have hge := hrow.fence
    have := hlt r' hr' (by rw [hrow.stepId, hrid, hid])
    omega
  · intro calls lease lease' now now' settling settling' x x' h h' hid
    obtain ⟨-, hrow, hfence, howner, -⟩ := checkLease_ok h
    obtain ⟨-, hrow', hfence', howner', -⟩ := checkLease_ok h'
    obtain ⟨hr, hrid, -⟩ := findStep_ok hrow
    obtain ⟨hr', hrid', -⟩ := findStep_ok hrow'
    have hsame : x.2 = x'.2 := by
      refine eq_of_stepId_eq (inv_reachable calls).stepIds hr hr' ?_
      rw [hrid, hrid', hid]
    rw [hsame] at hfence howner
    exact ⟨Option.some.inj (howner.symm.trans howner'), hfence.symm.trans hfence'⟩
  · intro calls lease hstale now scan
    have hpassed := passed_of_stale hstale
    exact ⟨fun op hop => refuses_of_passed hpassed hop now scan,
      fun refs => commit_of_passed hpassed refs now scan⟩
  · intro calls
    refine ⟨(fenced_reachable calls).manifestIds, fun more => ?_⟩
    rw [exec_append]
    exact (evolves_exec more (inv_reachable calls)).manifests

end Polymind.Jobs
