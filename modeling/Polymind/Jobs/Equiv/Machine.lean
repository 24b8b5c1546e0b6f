import Polymind.Jobs.Equiv.Runs

/-!
# One step at a time

A step with its attempts and its outbox entries is a machine of its own: `Move` lists what can happen
to it.  Every transition of the ledger moves each step it has, or adds steps that were never attempted
(`view_transition`), so that what every move keeps holds of every step (`allViews_transition`), in
every database a run leads to (`exec_sound`).
-/

namespace Polymind.Jobs

open Relation

variable {U : Type} [DecidableEq U] {env : Env U} {db db' : Ledger U} {now : Time}

/-! ### Foreign keys -/

/-- Attempts, dispatches, manifests and intents belong to steps. -/
structure Referenced (db : Ledger U) : Prop where
  attempts : ∀ a ∈ db.attempts, a.stepId ∈ db.steps.map StepRow.stepId
  outbox : ∀ o ∈ db.outbox, o.stepId ∈ db.steps.map StepRow.stepId
  manifests : ∀ m ∈ db.manifests, m.stepId ∈ db.steps.map StepRow.stepId
  intents : ∀ i ∈ db.intents, i.stepId ∈ db.steps.map StepRow.stepId

omit [DecidableEq U] in
theorem Referenced.empty : Referenced (Ledger.empty : Ledger U) := by
  refine ⟨?_, ?_, ?_, ?_⟩ <;> simp [Ledger.empty]

omit [DecidableEq U] in
/-- Rows that refer to steps of before, and new rows that refer to steps. -/
theorem Referenced.of_grown (h : Referenced db) (hev : Evolves db db')
    (hattempts : ∀ a ∈ db'.attempts, a.stepId ∈ db.attempts.map AttemptRow.stepId ∨
      a.stepId ∈ db.steps.map StepRow.stepId)
    (houtbox : ∀ o ∈ db'.outbox, o.stepId ∈ db.outbox.map OutboxRow.stepId ∨
      o.stepId ∈ db'.steps.map StepRow.stepId)
    (hmanifests : ∀ m ∈ db'.manifests, m ∈ db.manifests ∨ m.stepId ∈ db'.steps.map StepRow.stepId)
    (hintents : ∀ i ∈ db'.intents, i ∈ db.intents ∨ i.stepId ∈ db.steps.map StepRow.stepId) :
    Referenced db' := by
  have hids : ∀ id ∈ db.steps.map StepRow.stepId, id ∈ db'.steps.map StepRow.stepId := by
    intro id hid
    obtain ⟨r, hr, rfl⟩ := List.mem_map.mp hid
    obtain ⟨r', hr', hrr⟩ := hev.steps r hr
    exact List.mem_map.mpr ⟨r', hr', hrr.stepId⟩
  refine ⟨fun a ha => ?_, fun o ho => ?_, fun m hm => ?_, fun i hi => ?_⟩
  · rcases hattempts a ha with hold | hnew
    · obtain ⟨b, hb, heq⟩ := List.mem_map.mp hold
      exact hids _ (heq ▸ h.attempts b hb)
    · exact hids _ hnew
  · rcases houtbox o ho with hold | hnew
    · obtain ⟨b, hb, heq⟩ := List.mem_map.mp hold
      exact hids _ (heq ▸ h.outbox b hb)
    · exact hnew
  · rcases hmanifests m hm with hold | hnew
    · exact hids _ (h.manifests m hold)
    · exact hnew
  · rcases hintents i hi with hold | hnew
    · exact hids _ (h.intents i hold)
    · exact hids _ hnew

omit [DecidableEq U] in
theorem stepIds_map {l : List (AttemptRow U)} {k : AttemptRow U → AttemptRow U}
    (hk : ∀ a, (k a).stepId = a.stepId) {ids : List U} :
    ∀ a ∈ l.map k, a.stepId ∈ l.map AttemptRow.stepId ∨ a.stepId ∈ ids := by
  intro a ha
  obtain ⟨b, hb, rfl⟩ := List.mem_map.mp ha
  exact Or.inl (List.mem_map.mpr ⟨b, hb, (hk b).symm⟩)

theorem cancelAttempt_stepId (now : Time) (ids : List U) (a : AttemptRow U) :
    (cancelAttempt now ids a).stepId = a.stepId :=
  (attemptEvolves_cancelAttempt a).stepId

theorem closeAttempt_stepId (now : Time) (row : StepRow U) (fault : SanitizedFailure)
    (outcome : Outcome) (notBefore : Option Time) (a : AttemptRow U) :
    (closeAttempt now row fault outcome notBefore a).stepId = a.stepId :=
  (attemptEvolves_closeAttempt a).stepId

theorem commitAttempt_stepId (now : Time) (lease : Lease U) (a : AttemptRow U) :
    (commitAttempt now lease a).stepId = a.stepId :=
  (attemptEvolves_commitAttempt a).stepId

theorem deliverRow_stepId (now : Time) (dispatchId : Nat) (stepId : U) (o : OutboxRow U) :
    (deliverRow now dispatchId stepId o).stepId = o.stepId := by
  unfold deliverRow
  split <;> rfl

/-- Every transition keeps the references. -/
theorem referenced_transition (hinv : Inv db) (h : Referenced db) (ht : Transition env now db db') :
    Referenced db' := by
  have hev := evolves_transition hinv ht
  have ha : ∀ a ∈ db.attempts, a.stepId ∈ db.attempts.map AttemptRow.stepId ∨
      a.stepId ∈ db.steps.map StepRow.stepId := fun a ha => Or.inl (List.mem_map_of_mem ha)
  have ho : ∀ (ids : List U), ∀ o ∈ db.outbox, o.stepId ∈ db.outbox.map OutboxRow.stepId ∨
      o.stepId ∈ ids := fun _ o ho => Or.inl (List.mem_map_of_mem ho)
  have hm : ∀ (ids : List U), ∀ m ∈ db.manifests, m ∈ db.manifests ∨ m.stepId ∈ ids :=
    fun _ m hm => Or.inl hm
  have hi : ∀ i ∈ db.intents, i ∈ db.intents ∨ i.stepId ∈ db.steps.map StepRow.stepId :=
    fun i hi => Or.inl hi
  have hconcat : ∀ {row : StepRow U} {o : OutboxRow U} (ids : List U), row ∈ db.steps →
      o.stepId = row.stepId → row.stepId ∈ ids → ∀ x ∈ db.outbox ++ [o],
        x.stepId ∈ db.outbox.map OutboxRow.stepId ∨ x.stepId ∈ ids := by
    intro row o ids hrow hid hmem x hx
    rcases List.mem_append.mp hx with hx | hx
    · exact Or.inl (List.mem_map_of_mem hx)
    · rw [List.mem_singleton.mp hx, hid]
      exact Or.inr hmem
  have hstays : ∀ {row : StepRow U}, row ∈ db.steps → row.stepId ∈ db'.steps.map StepRow.stepId := by
    intro row hrow
    obtain ⟨r', hr', hrr⟩ := hev.steps row hrow
    exact List.mem_map.mpr ⟨r', hr', hrr.stepId⟩
  cases ht with
  | admitted scan jobId _ row new copies had =>
    obtain ⟨sent, hsent, hof, -⟩ := had.announced
    obtain ⟨objects, outbox, seq, rfl⟩ := had.result
    have hsent : outbox = db.outbox ++ sent := hsent
    refine h.of_grown hev ha ?_ ?_ hi
    · intro o hmem
      have hmem : o ∈ outbox := hmem
      rw [hsent] at hmem
      rcases List.mem_append.mp hmem with hmem | hmem
      · exact Or.inl (List.mem_map_of_mem hmem)
      · obtain ⟨-, -, r, hr, hid⟩ := hof o hmem
        exact Or.inr (List.mem_map.mpr ⟨r, List.mem_append_right _ hr, hid⟩)
    · intro m hmem
      rcases List.mem_append.mp hmem with hmem | hmem
      · exact Or.inl hmem
      · obtain ⟨r, hr, hid, -⟩ := had.owned m hmem
        exact Or.inr (List.mem_map.mpr ⟨r, List.mem_append_right _ hr, hid⟩)
  | retried scan job row fault retryAt hl hrun _ _ =>
    exact h.of_grown hev (stepIds_map (closeAttempt_stepId now row fault _ _))
      (hconcat _ hl.row_mem rfl (hstays hl.row_mem)) (hm _) hi
  | failed scan job row fault category hl hrun =>
    rw [terminalFailure_eq _ _ _ _ _ _ (by exact hinv.stepIds)] at hev ⊢
    refine h.of_grown hev ?_ (ho _) (hm _) hi
    intro a hmem
    obtain ⟨b, hb, rfl⟩ := List.mem_map.mp hmem
    rw [cancelAttempt_stepId]
    exact stepIds_map (closeAttempt_stepId now row fault _ _) b hb
  | spent scan job row hl hwait =>
    rw [terminalFailure_eq _ _ _ _ _ _ hinv.stepIds] at hev ⊢
    exact h.of_grown hev (stepIds_map (cancelAttempt_stepId now _)) (ho _) (hm _) hi
  | started scan job row owner expires hl hwait _ _ _ =>
    refine h.of_grown hev ?_ (ho _) (hm _) hi
    intro a hmem
    rcases List.mem_append.mp hmem with hmem | hmem
    · exact ha a hmem
    · rw [List.mem_singleton.mp hmem]
      exact Or.inr (List.mem_map_of_mem hl.row_mem)
  | renewed lease job row expires _ => exact h.of_grown hev ha (ho _) (hm _) hi
  | registered lease job row ref hc =>
    obtain ⟨hl, -, hsid, -⟩ := onLive_of_checkLease hc
    refine h.of_grown hev ?_ ?_ ?_ ?_ <;> unfold Ledger.insertIntent <;> split
    · exact ha
    · exact ha
    · exact ho _
    · exact ho _
    · exact hm _
    · exact hm _
    · exact hi
    · intro i hmem
      rcases List.mem_append.mp hmem with hmem | hmem
      · exact Or.inl hmem
      · rw [List.mem_singleton.mp hmem]
        exact Or.inr (hsid ▸ List.mem_map_of_mem hl.row_mem)
  | committed scan lease refs job row db₁ hc _ _ hact =>
    obtain ⟨hl, -, hsid, -⟩ := onLive_of_checkLease hc
    obtain ⟨g, sent, hg⟩ := activate_ok (by exact nodup_commitRow hinv lease.stepId) hact
    obtain rfl := hg.result
    refine h.of_grown hev (stepIds_map (commitAttempt_stepId now lease)) ?_ ?_ hi
    · intro o hmem
      rcases List.mem_append.mp hmem with hmem | hmem
      · exact Or.inl (List.mem_map_of_mem hmem)
      · obtain ⟨-, -, r, hr, -, hid⟩ := hg.sent o hmem
        obtain ⟨hr, -⟩ := mem_stepsOf.mp ((scan.perm _).mem_iff.mp hr)
        obtain ⟨r₀, hr₀, rfl⟩ := List.mem_map.mp hr
        have hid₀ : (commitRow now lease.stepId r₀).stepId = r₀.stepId := by
          unfold commitRow
          split <;> rfl
        exact Or.inr (hid ▸ hid₀ ▸ hstays hr₀)
    · intro m hmem
      rcases List.mem_append.mp hmem with hmem | hmem
      · exact Or.inl hmem
      · rw [List.mem_singleton.mp hmem]
        exact Or.inr (hsid ▸ hstays hl.row_mem)
  | cancelled scan job _ _ =>
    rw [cancelJob_eq] at hev ⊢
    exact h.of_grown hev (stepIds_map (cancelAttempt_stepId now _)) (ho _) (hm _) hi
  | abandoned scan job row _ _ =>
    rw [cancelStep_eq, cancelJob_eq] at hev ⊢
    refine h.of_grown hev ?_ (ho _) (hm _) hi
    intro a hmem
    obtain ⟨b, hb, rfl⟩ := List.mem_map.mp hmem
    rw [cancelAttempt_stepId]
    exact stepIds_map (cancelAttempt_stepId now _) b hb
  | settled scan job row _ _ _ _ _ =>
    rw [cancelStep_eq] at hev ⊢
    exact h.of_grown hev (stepIds_map (cancelAttempt_stepId now _)) (ho _) (hm _) hi
  | enqueued row hrow => exact h.of_grown hev ha (hconcat _ hrow rfl (hstays hrow)) (hm _) hi
  | delivered dispatchId stepId =>
    refine h.of_grown hev ha ?_ (hm _) hi
    intro o hmem
    obtain ⟨b, hb, rfl⟩ := List.mem_map.mp hmem
    rw [deliverRow_stepId]
    exact Or.inl (List.mem_map_of_mem hb)

/-! ### Views and moves -/

/-- A step with what the tables hold about it. -/
structure View (U : Type) where
  row : StepRow U
  attempts : List (AttemptRow U)
  outbox : List (OutboxRow U)
  manifests : List (ManifestRow U)
  intents : List (IntentRow U)

/-- `SELECT * FROM step_attempts WHERE step_id=?`. -/
def Ledger.attemptsOf (db : Ledger U) (stepId : U) : List (AttemptRow U) :=
  db.attempts.filter fun a => a.stepId = stepId

/-- `SELECT * FROM outbox WHERE step_id=?`. -/
def Ledger.outboxOf (db : Ledger U) (stepId : U) : List (OutboxRow U) :=
  db.outbox.filter fun o => o.stepId = stepId

/-- `SELECT * FROM artifact_manifests WHERE step_id=?`. -/
def Ledger.manifestsOf (db : Ledger U) (stepId : U) : List (ManifestRow U) :=
  db.manifests.filter fun m => m.stepId = stepId

/-- `SELECT * FROM object_intents WHERE step_id=?`. -/
def Ledger.intentsOf (db : Ledger U) (stepId : U) : List (IntentRow U) :=
  db.intents.filter fun i => i.stepId = stepId

def Ledger.view (db : Ledger U) (r : StepRow U) : View U :=
  ⟨r, db.attemptsOf r.stepId, db.outboxOf r.stepId, db.manifestsOf r.stepId, db.intentsOf r.stepId⟩

/-- How `_activate` came to the inputs of a step: from rows it read, whose succeeded ones are still
there in the database it left. -/
def Given (env : Env U) (db : Ledger U) (r : StepRow U) (inputs : Str) : Prop :=
  ∃ job ∈ db.jobs, job.jobId = r.jobId ∧ ∃ rows,
    (∀ p ∈ rows, p.state = .succeeded → p ∈ db.stepsOf r.jobId) ∧ Due rows r ∧
      inputs = inputsOf env job db rows r

/-- What can happen to a step in one transition.  An activated step is given its inputs. -/
inductive Move (now : Time) (policy : RetryPolicy) (given : StepRow U → Str → Prop) :
    View U → View U → Prop where
  | same (v : View U) : Move now policy given v v
  | activated (v : View U) (key inputs : Str) (sent : List (OutboxRow U))
      (hpend : v.row.state = .pending) (hgiven : given v.row inputs) (hne : sent ≠ [])
      (hsent : ∀ o ∈ sent, o.availableAt = now ∧ o.deliveredAt = none) :
      Move now policy given v { v with
        row := { v.row with state := .ready, stepKey := key, inputFingerprint := inputs }
        outbox := v.outbox ++ sent }
  | started (v : View U) (owner : Str) (expires : Time)
      (hwait : v.row.state = .ready ∨ v.row.state = .retryWait) (hdue : v.row.notBefore ≤ now)
      (hbudget : budgetSpent policy v.row now = .ok false) :
      Move now policy given v { v with
        row := startRow now v.row owner expires v.row
        attempts := v.attempts ++ [startAttempt now v.row owner] }
  | renewed (v : View U) (expires : Time) (hrun : v.row.state = .running) :
      Move now policy given v { v with row := { v.row with leaseExpiresAt := some expires } }
  | retried (v : View U) (fault : SanitizedFailure) (retryAt : Time) (dispatchId : Nat)
      (hrun : v.row.state = .running) (hdelay : now + fault.retryAfter.getD 0 ≤ retryAt)
      (hattempts : v.row.attemptCount < policy.maxAttempts) :
      Move now policy given v { v with
        row := retryRow v.row retryAt fault.category v.row
        attempts := v.attempts.map (closeAttempt now v.row fault .retryWait (some retryAt))
        outbox := v.outbox ++ [⟨dispatchId, v.row.stepId, now, retryAt, none⟩] }
  | failed (v : View U) (fault : SanitizedFailure) (category : Category)
      (hrun : v.row.state = .running) :
      Move now policy given v { v with
        row := v.row.failedWith now category
        attempts := v.attempts.map (closeAttempt now v.row fault .failed none) }
  | spent (v : View U) (category : Category)
      (hwait : v.row.state = .ready ∨ v.row.state = .retryWait) :
      Move now policy given v { v with row := v.row.failedWith now category }
  | cancelled (v : View U) (hact : v.row.state.active = true) :
      Move now policy given v { v with
        row := v.row.cancelled now
        attempts := v.attempts.map (cancelAttempt now [v.row.stepId]) }
  | committed (v : View U) (lease : Lease U) (refs : List (ObjectRef U))
      (hrun : v.row.state = .running) (hid : lease.stepId = v.row.stepId)
      (hfence : lease.fence = v.row.fence) (hnew : v.manifests = [])
      (hintents : ∀ ref ∈ refs, ∃ i ∈ v.intents, i.objectKey = ref.key ∧ i.ref = ref) :
      Move now policy given v { v with
        row := commitRow now v.row.stepId v.row
        attempts := v.attempts.map (commitAttempt now lease)
        manifests := v.manifests ++ [⟨v.row.stepId, refs, now, lease.fence⟩] }
  | registered (v : View U) (ref : ObjectRef U) (hrun : v.row.state = .running) :
      Move now policy given v { v with
        intents := v.intents ++ [⟨v.row.stepId, ref.key, ref, now⟩] }
  | notified (v : View U) (dispatchId : Nat) :
      Move now policy given v { v with
        outbox := v.outbox ++ [⟨dispatchId, v.row.stepId, now, now, none⟩] }
  | delivered (v : View U) (dispatchId : Nat) :
      Move now policy given v { v with
        outbox := v.outbox.map (deliverRow now dispatchId v.row.stepId) }

/-- A step that an admission has just added: never attempted, announced if it is `READY`, and with the
manifest it copied if it is `SUCCEEDED`. -/
structure Fresh (now : Time) (v : View U) : Prop where
  planned : Planned v.row.jobId v.row
  notBefore : v.row.notBefore = now
  attempts : v.attempts = []
  outbox : ∀ o ∈ v.outbox, o.availableAt = now ∧ o.deliveredAt = none
  announced : v.row.state = .ready → v.outbox ≠ []
  manifests : ∀ m ∈ v.manifests, m.fence = 0
  copied : v.row.state = .succeeded ↔ v.manifests ≠ []
  intents : v.intents = []

/-! ### What a statement does to the view of a step -/

section

variable {α : Type} {key : α → U} {k k' : α → α} {id : U}

/-- A map that keeps the step of each row maps the rows of each step. -/
theorem filter_key_map (hk : ∀ a, key (k a) = key a) (rows : List α) (id : U) :
    (rows.map k).filter (fun a => key a = id) = (rows.filter fun a => key a = id).map k := by
  rw [List.filter_map]
  refine congrArg (List.map k) (List.filter_congr fun a _ => ?_)
  simp only [Function.comp, hk]

theorem map_filter_congr {rows : List α} (hk : ∀ a, key a = id → k a = k' a) :
    (rows.filter fun a => key a = id).map k = (rows.filter fun a => key a = id).map k' :=
  List.map_congr_left fun a ha => hk a (of_decide_eq_true (List.mem_filter.mp ha).2)

/-- The rows of other steps are left alone. -/
theorem map_filter_eq {rows : List α} (hk : ∀ a, key a = id → k a = a) :
    (rows.filter fun a => key a = id).map k = rows.filter fun a => key a = id :=
  (map_filter_congr hk).trans (List.map_id _)

end

theorem closeAttempt_other {row : StepRow U} {fault : SanitizedFailure} {outcome : Outcome}
    {notBefore : Option Time} {a : AttemptRow U} (h : a.stepId ≠ row.stepId) :
    closeAttempt now row fault outcome notBefore a = a :=
  if_neg fun hc => h hc.1

theorem commitAttempt_other {lease : Lease U} {a : AttemptRow U} (h : a.stepId ≠ lease.stepId) :
    commitAttempt now lease a = a :=
  if_neg fun hc => h hc.1

theorem deliverRow_other {dispatchId : Nat} {stepId : U} {o : OutboxRow U} (h : o.stepId ≠ stepId) :
    deliverRow now dispatchId stepId o = o :=
  if_neg fun hc => h hc.2

theorem cancelAttempt_other {ids : List U} {a : AttemptRow U} (h : a.stepId ∉ ids) :
    cancelAttempt now ids a = a :=
  if_neg fun hc => h hc.1

theorem cancelAttempt_mem {ids : List U} {a : AttemptRow U} (h : a.stepId ∈ ids) :
    cancelAttempt now ids a = cancelAttempt now [a.stepId] a := by
  unfold cancelAttempt
  simp [h]

/-- The tables a statement on steps and attempts leaves alone. -/
structure Aside (db d : Ledger U) : Prop where
  outbox : d.outbox = db.outbox
  manifests : d.manifests = db.manifests
  intents : d.intents = db.intents

omit [DecidableEq U] in
theorem Aside.refl (db : Ledger U) : Aside db db := ⟨rfl, rfl, rfl⟩

/-- A view after statements on steps and attempts. -/
theorem Aside.view_eq {d : Ledger U} (h : Aside db d) {r r' : StepRow U} (hid : r'.stepId = r.stepId)
    {attempts : List (AttemptRow U)} (hattempts : d.attemptsOf r.stepId = attempts) :
    d.view r' = { db.view r with row := r', attempts := attempts } := by
  unfold Ledger.view Ledger.outboxOf Ledger.manifestsOf Ledger.intentsOf
  rw [hid, hattempts, h.outbox, h.manifests, h.intents]

/-- The steps with ids in a list are cancelled with their attempts, and the others left alone. -/
theorem view_cancel {ids : List U} {r : StepRow U} {policy : RetryPolicy}
    {given : StepRow U → Str → Prop} {d : Ledger U}
    (hattempts : d.attempts = db.attempts.map (cancelAttempt now ids)) (hrest : Aside db d)
    (hact : r.stepId ∈ ids → r.state.active = true) :
    Move now policy given (db.view r) (d.view (cancelRow now ids r)) := by
  have hof : d.attemptsOf r.stepId = (db.attemptsOf r.stepId).map (cancelAttempt now ids) := by
    rw [Ledger.attemptsOf, hattempts]
    exact filter_key_map (cancelAttempt_stepId now ids) _ _
  rw [hrest.view_eq (cancelRow_ids now ids r).1 hof]
  by_cases hmem : r.stepId ∈ ids
  · have hattempt : ∀ a : AttemptRow U, a.stepId = r.stepId →
        cancelAttempt now ids a = cancelAttempt now [r.stepId] a := by
      intro a ha
      rw [cancelAttempt_mem (ha ▸ hmem), ha]
    rw [Ledger.attemptsOf, map_filter_congr hattempt, cancelRow, if_pos hmem]
    exact .cancelled (db.view r) (hact hmem)
  · have hattempt : ∀ a : AttemptRow U, a.stepId = r.stepId → cancelAttempt now ids a = a :=
      fun a ha => cancelAttempt_other (ha ▸ hmem)
    rw [Ledger.attemptsOf, map_filter_eq hattempt, cancelRow, if_neg hmem]
    exact .same (db.view r)

/-- The steps of a failed job: one has failed, the active ones beside it are cancelled. -/
theorem view_fail (hinv : Inv db) {row r : StepRow U} (hrow : row ∈ db.steps) (hr : r ∈ db.steps)
    {category : Category} {policy : RetryPolicy} {given : StepRow U → Str → Prop}
    {k : AttemptRow U → AttemptRow U} {d : Ledger U}
    (hk : ∀ a, (k a).stepId = a.stepId) (hother : ∀ a, a.stepId ≠ row.stepId → k a = a)
    (hattempts : d.attempts = (db.attempts.map k).map (cancelAttempt now (siblings db row)))
    (hrest : Aside db d)
    (hmove : Move now policy given (db.view row) { db.view row with
      row := row.failedWith now category, attempts := (db.attemptsOf row.stepId).map k }) :
    Move now policy given (db.view r) (d.view (failRow now row category r)) := by
  have hid : (failRow now row category r).stepId = r.stepId := by
    unfold failRow
    split
    · rfl
    · split <;> rfl
  have hof : d.attemptsOf r.stepId
      = ((db.attemptsOf r.stepId).map k).map (cancelAttempt now (siblings db row)) := by
    unfold Ledger.attemptsOf
    rw [hattempts, filter_key_map (cancelAttempt_stepId now _), filter_key_map hk]
  by_cases hrr : r.stepId = row.stepId
  · -- the step that failed is not among those cancelled
    obtain rfl := eq_of_stepId_eq hinv.stepIds hr hrow hrr
    have hnot : r.stepId ∉ siblings db r := by
      rw [siblings, mem_selected hinv.stepIds hr]
      simp
    have hsame : ((db.attemptsOf r.stepId).map k).map (cancelAttempt now (siblings db r))
        = (db.attemptsOf r.stepId).map k := by
      rw [Ledger.attemptsOf, ← filter_key_map hk]
      exact map_filter_eq fun a ha => cancelAttempt_other (ha ▸ hnot)
    rw [hrest.view_eq hid (hof.trans hsame), failRow, if_pos rfl]
    exact hmove
  · have hsame : (db.attemptsOf r.stepId).map k = db.attemptsOf r.stepId :=
      map_filter_eq fun a ha => hother a (ha ▸ hrr)
    have hsib : r.stepId ∈ siblings db row ↔ r.jobId = row.jobId ∧ r.state.active = true := by
      rw [siblings, mem_selected hinv.stepIds hr]
      simp [hrr]
    have hrow' : failRow now row category r = cancelRow now (siblings db row) r := by
      unfold failRow cancelRow
      rw [if_neg hrr]
      exact if_congr hsib.symm rfl rfl
    -- a sibling is cancelled as by `_cancel_step`
    set d' : Ledger U :=
      { db with attempts := db.attempts.map (cancelAttempt now (siblings db row)) } with hd'
    have hof' : d'.attemptsOf r.stepId = d.attemptsOf r.stepId := by
      rw [hof, hsame, Ledger.attemptsOf, hd']
      exact filter_key_map (cancelAttempt_stepId now _) _ _
    have hview : d.view (cancelRow now (siblings db row) r)
        = d'.view (cancelRow now (siblings db row) r) := by
      rw [hrest.view_eq (cancelRow_ids now _ r).1 rfl,
        Aside.view_eq (d := d') ⟨rfl, rfl, rfl⟩ (cancelRow_ids now _ r).1 hof']
      rfl
    rw [hrow', hview]
    exact view_cancel rfl ⟨rfl, rfl, rfl⟩ fun hmem => (hsib.mp hmem).2

/-! ### Admissions -/

/-- The rows of an admission, and those of before. -/
theorem Admitted.new_stepId {scan : Scan U} {jobId : U} {row : JobRow U} {new : List (StepRow U)}
    {copies : List (ManifestRow U)} (had : Admitted env scan db jobId now db' row new copies)
    {r : StepRow U} (hr : r ∈ new) : r.stepId ∉ db.steps.map StepRow.stepId := by
  have hnd := had.nodup
  rw [List.map_append, List.nodup_append] at hnd
  exact fun hmem => hnd.2.2 _ hmem _ (List.mem_map_of_mem hr) rfl

/-- How a row of an admission comes from its draft. -/
theorem Plans.kept {row : JobRow U} {new drafts rows : List (StepRow U)} {copies : List (ManifestRow U)}
    {prior : Option (JobRow U)} {execution : Time} {g : StepRow U → StepRow U}
    (hp : Plans env db now db' row new copies prior execution drafts rows g) {r : StepRow U}
    (hr : r ∈ drafts) : (Due rows r ∧ g r = readyRow env row db' rows r) ∨ g r = r := by
  by_cases hdue : Due rows r
  · exact Or.inl ⟨hdue, hp.due r hr hdue⟩
  · exact Or.inr (hp.rest r hr hdue)

/-- A succeeded row of an admission is a draft that copies a manifest. -/
theorem Plans.copied {row : JobRow U} {new drafts rows : List (StepRow U)}
    {copies : List (ManifestRow U)} {prior : Option (JobRow U)} {execution : Time}
    {g : StepRow U → StepRow U}
    (hp : Plans env db now db' row new copies prior execution drafts rows g) {r : StepRow U}
    (hr : r ∈ new) (hs : r.state = .succeeded) : r ∈ drafts ∧ ∃ spec ∈ row.request.steps, ∃ o,
      r = plannedStep env row.request row.jobId row.runId r.stepId row.generation execution now spec
        (some o) ∧
      Reuses { db with jobs := db.jobs ++ [row] } (reusableSteps env db row.request prior) drafts copies
        now spec r o := by
  rw [hp.new_eq] at hr
  obtain ⟨r₀, hr₀, rfl⟩ := List.mem_map.mp hr
  rcases hp.kept hr₀ with ⟨-, hg⟩ | hg
  · rw [hg] at hs
    cases hs
  · rw [hg] at hs ⊢
    obtain ⟨spec, hspec, old, heq, hreuse⟩ := mem_of_forall₂ hp.drafted hr₀
    cases old with
    | none =>
      rw [heq] at hs
      cases hs
    | some o => exact ⟨hr₀, spec, hspec, o, heq, hreuse o rfl⟩

/-- A new row has the view of a step that was never attempted. -/
theorem fresh_admitted (href : Referenced db) {scan : Scan U} {jobId : U}
    {row : JobRow U} {new : List (StepRow U)} {copies : List (ManifestRow U)}
    (had : Admitted env scan db jobId now db' row new copies) {r : StepRow U} (hr : r ∈ new) :
    Fresh now (db'.view r) := by
  obtain ⟨sent, hsent, hof, hready⟩ := had.announced
  obtain ⟨prior, execution, drafts, rows, g, hp⟩ := had.plans
  obtain ⟨hattempts, hmanifests, hintents⟩ : db'.attempts = db.attempts
      ∧ db'.manifests = db.manifests ++ copies ∧ db'.intents = db.intents := by
    obtain ⟨objects, outbox, seq, rfl⟩ := had.result
    exact ⟨rfl, rfl, rfl⟩
  have hnew := had.new_stepId hr
  have hoff : ∀ {α : Type} {key : α → U} {l : List α},
      (∀ a ∈ l, key a ∈ db.steps.map StepRow.stepId) → (l.filter fun a => key a = r.stepId) = [] := by
    intro α key l hl
    rw [List.filter_eq_nil_iff]
    exact fun a ha hid => hnew (of_decide_eq_true hid ▸ hl a ha)
  have hcopies : db'.manifestsOf r.stepId = copies.filter fun m => m.stepId = r.stepId := by
    rw [Ledger.manifestsOf, hmanifests, List.filter_append, hoff href.manifests, List.nil_append]
  have houtbox : db'.outboxOf r.stepId = sent.filter fun o => o.stepId = r.stepId := by
    rw [Ledger.outboxOf, hsent, List.filter_append, hoff href.outbox, List.nil_append]
  refine ⟨(had.planned r hr).jobId.symm ▸ had.planned r hr, ?_, ?_, ?_, ?_, ?_, ?_, ?_⟩
  · rw [hp.new_eq] at hr
    obtain ⟨r₀, hr₀, rfl⟩ := List.mem_map.mp hr
    have hbefore : r₀.notBefore = now := by
      obtain ⟨spec, -, old, heq, -⟩ := mem_of_forall₂ hp.drafted hr₀
      rw [heq]
      rfl
    show (g r₀).notBefore = now
    rcases hp.kept hr₀ with ⟨-, hg⟩ | hg <;> rw [hg] <;> exact hbefore
  · show db'.attemptsOf r.stepId = []
    rw [Ledger.attemptsOf, hattempts, hoff href.attempts]
  · intro o ho
    have ho : o ∈ db'.outboxOf r.stepId := ho
    rw [houtbox] at ho
    obtain ⟨h1, h2, -⟩ := hof o (List.mem_filter.mp ho).1
    exact ⟨h1, h2⟩
  · intro hs
    obtain ⟨o, ho, hid⟩ := hready r hr hs
    show db'.outboxOf r.stepId ≠ []
    rw [houtbox]
    exact List.ne_nil_of_mem (List.mem_filter.mpr ⟨ho, decide_eq_true hid⟩)
  · intro m hm
    have hm : m ∈ db'.manifestsOf r.stepId := hm
    rw [hcopies] at hm
    exact had.copied m (List.mem_filter.mp hm).1
  · show r.state = .succeeded ↔ db'.manifestsOf r.stepId ≠ []
    rw [hcopies]
    constructor
    · intro hs
      obtain ⟨-, spec, -, o, -, hreuse⟩ := hp.copied hr hs
      obtain ⟨m, -, -, hcopy⟩ := hreuse.manifest
      exact List.ne_nil_of_mem (List.mem_filter.mpr ⟨hcopy, decide_eq_true rfl⟩)
    · intro hne
      obtain ⟨m, hm⟩ := List.exists_mem_of_ne_nil _ hne
      obtain ⟨hm, hid⟩ := List.mem_filter.mp hm
      obtain ⟨r₁, hr₁, hid₁, hs₁⟩ := had.owned m hm
      have hnd := had.nodup
      rw [List.map_append, List.nodup_append] at hnd
      rw [← List.inj_on_of_nodup_map hnd.2.1 hr₁ hr (hid₁.trans (of_decide_eq_true hid))]
      exact hs₁
  · show db'.intentsOf r.stepId = []
    rw [Ledger.intentsOf, hintents, hoff href.intents]

/-- An admission leaves the steps of before alone. -/
theorem view_admitted {scan : Scan U} {jobId : U} {row : JobRow U} {new : List (StepRow U)}
    {copies : List (ManifestRow U)} (had : Admitted env scan db jobId now db' row new copies)
    {r : StepRow U} (hr : r ∈ db.steps) : db'.view r = db.view r := by
  obtain ⟨sent, hsent, hof, -⟩ := had.announced
  obtain ⟨hattempts, hmanifests, hintents⟩ : db'.attempts = db.attempts
      ∧ db'.manifests = db.manifests ++ copies ∧ db'.intents = db.intents := by
    obtain ⟨objects, outbox, seq, rfl⟩ := had.result
    exact ⟨rfl, rfl, rfl⟩
  have hoff : ∀ {α : Type} {key : α → U} {l : List α},
      (∀ a ∈ l, ∃ x ∈ new, x.stepId = key a) → (l.filter fun a => key a = r.stepId) = [] := by
    intro α key l hl
    rw [List.filter_eq_nil_iff]
    intro a ha hid
    obtain ⟨x, hx, hxid⟩ := hl a ha
    refine had.new_stepId hx (List.mem_map.mpr ⟨r, hr, ?_⟩)
    rw [hxid, of_decide_eq_true hid]
  have houtbox : db'.outboxOf r.stepId = db.outboxOf r.stepId := by
    rw [Ledger.outboxOf, hsent, List.filter_append, hoff fun o ho => (hof o ho).2.2, List.append_nil]
    rfl
  have hman : db'.manifestsOf r.stepId = db.manifestsOf r.stepId := by
    have hnil : (copies.filter fun m => m.stepId = r.stepId) = [] :=
      hoff fun m hm => (had.owned m hm).imp fun _ hx => ⟨hx.1, hx.2.1⟩
    rw [Ledger.manifestsOf, hmanifests, List.filter_append, hnil, List.append_nil]
    rfl
  unfold Ledger.view Ledger.attemptsOf Ledger.intentsOf
  rw [houtbox, hman, hattempts, hintents]

/-- The transition from `db` to `db'` is an admission that adds the step `r`. -/
structure Adds (env : Env U) (now : Time) (db db' : Ledger U) (r : StepRow U) : Prop where
  new : r.stepId ∉ db.steps.map StepRow.stepId
  fresh : Fresh now (db'.view r)
  admitted : ∃ scan jobId row new copies, Admitted env scan db jobId now db' row new copies ∧ r ∈ new

/-! ### Commits -/

theorem commitRow_ids (now : Time) (stepId : U) (r : StepRow U) :
    (commitRow now stepId r).stepId = r.stepId ∧ (commitRow now stepId r).jobId = r.jobId := by
  unfold commitRow
  split <;> exact ⟨rfl, rfl⟩

/-- The intents that `commit` has found for its manifest. -/
theorem intentsHold_mem {stepId : U} {refs : List (ObjectRef U)} (h : intentsHold db stepId refs = true) :
    ∀ ref ∈ refs, ∃ i ∈ db.intentsOf stepId, i.objectKey = ref.key ∧ i.ref = ref := by
  intro ref href
  have hone := List.all_eq_true.mp h ref href
  split at hone
  · cases hone
  · rename_i i hi
    have hcols := List.find?_some hi
    simp only [Bool.and_eq_true, decide_eq_true_eq] at hcols
    exact ⟨i, List.mem_filter.mpr ⟨List.mem_of_find?_eq_some hi, decide_eq_true hcols.1⟩, hcols.2,
      of_decide_eq_true hone⟩

/-- The views after `commit`: the step it commits, the steps it activates, and the others. -/
theorem view_committed (hinv : Inv db) {scan : Scan U} {lease : Lease U} {refs : List (ObjectRef U)}
    {job : JobRow U} {row : StepRow U} {db₁ : Ledger U}
    (hc : checkLease env db lease now false = .ok (job, row))
    (hintents : intentsHold db lease.stepId refs = true)
    (hnew : lease.stepId ∉ db.manifests.map ManifestRow.stepId)
    (hact : activate env scan (recordCommit now lease refs db) job now = .ok db₁) {r' : StepRow U}
    (hr' : r' ∈ (refresh scan db₁ lease.jobId now).steps) : ∃ r ∈ db.steps, r'.stepId = r.stepId ∧
      r'.jobId = r.jobId ∧ ∀ j ∈ db.jobs, j.jobId = r.jobId → Move now j.request.profile.retry
        (Given env (refresh scan db₁ lease.jobId now)) (db.view r)
        ((refresh scan db₁ lease.jobId now).view r') := by
  obtain ⟨hl, hrun, hsid, -⟩ := onLive_of_checkLease hc
  have hfence : row.fence = lease.fence := (checkLease_ok hc).2.2.1
  obtain ⟨g, sent, hg⟩ := activate_ok (by exact nodup_commitRow hinv lease.stepId) hact
  obtain rfl := hg.result
  obtain ⟨r₁, hr₁, rfl⟩ := List.mem_map.mp hr'
  obtain ⟨r, hr, rfl⟩ := List.mem_map.mp hr₁
  have hid := commitRow_ids now lease.stepId r
  set d : Ledger U := recordCommit now lease refs db with hd
  set rows := scan.order (d.stepsOf job.jobId) with hrows
  have hattempts : d.attemptsOf r.stepId = (db.attemptsOf r.stepId).map (commitAttempt now lease) :=
    filter_key_map (commitAttempt_stepId now lease) _ r.stepId
  have hmem : ∀ p ∈ rows, p ∈ d.steps ∧ p.jobId = job.jobId := fun p hp =>
    mem_stepsOf.mp ((scan.perm _).mem_iff.mp hp)
  -- what is sent to a step shows that the step was due
  have hnone : ¬(commitRow now lease.stepId r ∈ rows ∧ Due rows (commitRow now lease.stepId r)) →
      (sent.filter fun o => o.stepId = r.stepId) = [] := by
    intro hnot
    rw [List.filter_eq_nil_iff]
    intro o ho hor
    obtain ⟨-, -, r₂, hr₂, hdue, hid₂⟩ := hg.sent o ho
    have heq : commitRow now lease.stepId r = r₂ := by
      refine eq_of_stepId_eq (nodup_commitRow hinv lease.stepId) hr₁ (hmem r₂ hr₂).1 ?_
      rw [hid.1, hid₂, of_decide_eq_true hor]
    exact hnot (heq ▸ ⟨hr₂, hdue⟩)
  by_cases hrr : r.stepId = lease.stepId
  · -- the committed step
    obtain rfl := eq_of_stepId_eq hinv.stepIds hr hl.row_mem (hrr.trans hsid.symm)
    have hnot : ¬(commitRow now lease.stepId r ∈ rows ∧ Due rows (commitRow now lease.stepId r)) := by
      rintro ⟨-, hdue⟩
      have hpend := hdue.pending
      rw [commitRow, if_pos hrr] at hpend
      cases hpend
    rw [hg.rest _ hr₁ hnot]
    refine ⟨r, hr, hid.1, hid.2, fun j _ _ => ?_⟩
    show Move now _ _ (db.view r) ⟨_, d.attemptsOf _, (db.outbox ++ sent).filter _,
      (db.manifests ++ [_]).filter _, db.intents.filter _⟩
    rw [hid.1, hattempts, List.filter_append, hnone hnot, List.append_nil, List.filter_append,
      List.filter_singleton, decide_eq_true hrr.symm, cond_true, ← hrr]
    refine .committed (db.view r) lease refs hrun hrr.symm hfence.symm ?_ ?_
    · show db.manifestsOf r.stepId = []
      rw [Ledger.manifestsOf, List.filter_eq_nil_iff]
      exact fun m hm hmid => hnew (List.mem_map.mpr ⟨m, hm, (of_decide_eq_true hmid).trans hrr⟩)
    · show ∀ ref ∈ refs, ∃ i ∈ db.intentsOf r.stepId, _
      rw [hrr]
      exact intentsHold_mem hintents
  · have hcommit : commitRow now lease.stepId r = r := if_neg hrr
    have hown : (db.attemptsOf r.stepId).map (commitAttempt now lease) = db.attemptsOf r.stepId :=
      map_filter_eq fun a ha => commitAttempt_other (ha ▸ hrr)
    have hman : (d.manifests.filter fun m => m.stepId = r.stepId) = db.manifestsOf r.stepId := by
      show (db.manifests ++ [_]).filter _ = _
      rw [List.filter_append, List.filter_singleton, decide_eq_false (Ne.symm hrr), cond_false,
        List.append_nil]
      rfl
    rw [hcommit] at hr₁ hnone ⊢
    rw [hown] at hattempts
    by_cases hdue : r ∈ rows ∧ Due rows r
    · -- an activated step
      rw [hg.due r hdue.1 hdue.2]
      refine ⟨r, hr, rfl, rfl, fun j _ _ => ?_⟩
      show Move now _ _ (db.view r) ⟨_, d.attemptsOf r.stepId,
        (db.outbox ++ sent).filter fun o => o.stepId = r.stepId,
        d.manifests.filter fun m => m.stepId = r.stepId, db.intentsOf r.stepId⟩
      rw [hattempts, List.filter_append, hman]
      refine .activated (db.view r) _ _ _ hdue.2.pending ?_ ?_ ?_
      · -- the rows that had succeeded are there unchanged
        have hjr : r.jobId = job.jobId := (hmem r hdue.1).2
        obtain ⟨f, hf, hkeeps⟩ := jobs_refresh scan ({ d with steps := d.steps.map g } : Ledger U)
          lease.jobId now
        refine ⟨f job, hf ▸ List.mem_map_of_mem hl.job_mem, (hkeeps job).jobId.trans hjr.symm, rows,
          fun p hp hs => ?_, hdue.2, ?_⟩
        · refine mem_stepsOf.mpr ⟨List.mem_map.mpr ⟨p, (hmem p hp).1,
            hg.rest p (hmem p hp).1 fun hc => ?_⟩, (hmem p hp).2.trans hjr.symm⟩
          rw [hc.2.pending] at hs
          cases hs
        · unfold inputsOf
          rw [(hkeeps job).request]
          rfl
      · obtain ⟨o, ho, hor⟩ := hg.announced r hdue.1 hdue.2
        exact List.ne_nil_of_mem (List.mem_filter.mpr ⟨ho, decide_eq_true hor⟩)
      · intro o ho
        obtain ⟨h1, h2, -⟩ := hg.sent o (List.mem_filter.mp ho).1
        exact ⟨h1, h2⟩
    · rw [hg.rest r hr₁ hdue]
      refine ⟨r, hr, rfl, rfl, fun j _ _ => ?_⟩
      show Move now _ _ (db.view r) ⟨_, d.attemptsOf r.stepId,
        (db.outbox ++ sent).filter fun o => o.stepId = r.stepId,
        d.manifests.filter fun m => m.stepId = r.stepId, db.intentsOf r.stepId⟩
      rw [hattempts, List.filter_append, hnone hdue, List.append_nil, hman]
      exact .same (db.view r)

/-! ### Transitions -/

/-- Every transition moves each step, or adds it. -/
theorem view_transition (hinv : Inv db) (href : Referenced db) (ht : Transition env now db db') :
    ∀ r' ∈ db'.steps, Adds env now db db' r' ∨
      ∃ r ∈ db.steps, r'.stepId = r.stepId ∧ r'.jobId = r.jobId ∧ ∀ j ∈ db.jobs, j.jobId = r.jobId →
        Move now j.request.profile.retry (Given env db') (db.view r) (db'.view r') := by
  intro r' hr'
  cases ht with
  | admitted scan jobId _ row new copies had =>
    have hsteps : db'.steps = db.steps ++ new := by
      obtain ⟨objects, outbox, seq, rfl⟩ := had.result
      rfl
    rw [hsteps] at hr'
    rcases List.mem_append.mp hr' with hr | hr
    · refine Or.inr ⟨r', hr, rfl, rfl, fun j _ _ => ?_⟩
      rw [view_admitted had hr]
      exact .same _
    · exact Or.inl ⟨had.new_stepId hr, fresh_admitted href had hr, scan, jobId, row, new, copies, had,
        hr⟩
  | retried scan job row fault retryAt hl hrun hdelay hattempts =>
    right
    obtain ⟨r, hr, rfl⟩ := List.mem_map.mp hr'
    have hid : (retryRow row retryAt fault.category r).stepId = r.stepId
        ∧ (retryRow row retryAt fault.category r).jobId = r.jobId := by
      unfold retryRow
      split <;> exact ⟨rfl, rfl⟩
    refine ⟨r, hr, hid.1, hid.2, fun j hj hjr => ?_⟩
    show Move now _ _ (db.view r) ⟨_, (db.attempts.map _).filter _, (db.outbox ++ [_]).filter _,
      db.manifests.filter _, db.intents.filter _⟩
    rw [hid.1, filter_key_map (closeAttempt_stepId now row fault _ _), List.filter_append]
    by_cases hrr : r.stepId = row.stepId
    · obtain rfl := eq_of_stepId_eq hinv.stepIds hr hl.row_mem hrr
      rw [hl.job_eq hinv hj hjr, List.filter_singleton, decide_eq_true rfl, cond_true]
      exact .retried (db.view r) fault retryAt _ hrun hdelay hattempts
    · rw [map_filter_eq fun a ha => closeAttempt_other (ha ▸ hrr), List.filter_singleton,
        decide_eq_false (Ne.symm hrr), cond_false, List.append_nil, retryRow, if_neg hrr]
      exact .same (db.view r)
  | failed scan job row fault category hl hrun =>
    right
    rw [terminalFailure_eq _ _ _ _ _ _ (by exact hinv.stepIds)] at hr' ⊢
    obtain ⟨r, hr, rfl⟩ := List.mem_map.mp hr'
    have hact : r.stepId = row.stepId → r.state.active = true := by
      intro hrr
      rw [eq_of_stepId_eq hinv.stepIds hr hl.row_mem hrr, hrun]
      rfl
    refine ⟨r, hr, (stepEvolves_failRow hact).stepId, (stepEvolves_failRow hact).jobId, fun j _ _ => ?_⟩
    exact view_fail hinv hl.row_mem hr (closeAttempt_stepId now row fault _ _)
      (fun a ha => closeAttempt_other ha) rfl ⟨rfl, rfl, rfl⟩ (.failed (db.view row) fault category hrun)
  | spent scan job row hl hwait =>
    right
    rw [terminalFailure_eq _ _ _ _ _ _ hinv.stepIds] at hr' ⊢
    obtain ⟨r, hr, rfl⟩ := List.mem_map.mp hr'
    have hact : r.stepId = row.stepId → r.state.active = true := by
      intro hrr
      rw [eq_of_stepId_eq hinv.stepIds hr hl.row_mem hrr]
      exact waiting_active hwait
    refine ⟨r, hr, (stepEvolves_failRow hact).stepId, (stepEvolves_failRow hact).jobId, fun j _ _ => ?_⟩
    refine view_fail hinv hl.row_mem hr (k := id) (fun _ => rfl) (fun _ _ => rfl) ?_ ⟨rfl, rfl, rfl⟩ ?_
    · rw [List.map_id]
      rfl
    · rw [List.map_id]
      exact .spent (db.view row) _ hwait
  | started scan job row owner expires hl hwait hdue hbudget _ =>
    right
    obtain ⟨r, hr, rfl⟩ := List.mem_map.mp hr'
    have hid : (startRow now row owner expires r).stepId = r.stepId
        ∧ (startRow now row owner expires r).jobId = r.jobId := by
      unfold startRow
      split <;> exact ⟨rfl, rfl⟩
    refine ⟨r, hr, hid.1, hid.2, fun j hj hjr => ?_⟩
    show Move now _ _ (db.view r) ⟨_, (db.attempts ++ [_]).filter _, db.outbox.filter _,
      db.manifests.filter _, db.intents.filter _⟩
    rw [hid.1, List.filter_append, List.filter_singleton]
    by_cases hrr : r.stepId = row.stepId
    · obtain rfl := eq_of_stepId_eq hinv.stepIds hr hl.row_mem hrr
      rw [hl.job_eq hinv hj hjr, startAttempt, decide_eq_true rfl, cond_true]
      exact .started (db.view r) owner expires hwait hdue hbudget
    · rw [startAttempt, decide_eq_false (Ne.symm hrr), cond_false, List.append_nil, startRow,
        if_neg hrr]
      exact .same (db.view r)
  | renewed lease job row expires hc =>
    right
    obtain ⟨hl, hrun, hsid, -⟩ := onLive_of_checkLease hc
    obtain ⟨r, hr, rfl⟩ := List.mem_map.mp hr'
    have hid : (renewRow lease.stepId expires r).stepId = r.stepId
        ∧ (renewRow lease.stepId expires r).jobId = r.jobId := by
      unfold renewRow
      split <;> exact ⟨rfl, rfl⟩
    refine ⟨r, hr, hid.1, hid.2, fun j hj hjr => ?_⟩
    rw [Aside.view_eq (d := { db with steps := db.steps.map (renewRow lease.stepId expires) })
      ⟨rfl, rfl, rfl⟩ hid.1 rfl]
    by_cases hrr : r.stepId = lease.stepId
    · obtain rfl := eq_of_stepId_eq hinv.stepIds hr hl.row_mem (hrr.trans hsid.symm)
      rw [renewRow, if_pos hrr]
      exact .renewed (db.view r) expires hrun
    · rw [renewRow, if_neg hrr]
      exact .same (db.view r)
  | registered lease job row ref hc =>
    right
    obtain ⟨hl, hrun, hsid, -⟩ := onLive_of_checkLease hc
    unfold Ledger.insertIntent at hr' ⊢
    split at hr'
    · rename_i hany
      rw [if_pos hany]
      exact ⟨r', hr', rfl, rfl, fun j _ _ => .same _⟩
    · rename_i hany
      rw [if_neg hany]
      refine ⟨r', hr', rfl, rfl, fun j _ _ => ?_⟩
      show Move now _ _ (db.view r') ⟨r', db.attemptsOf _, db.outboxOf _, db.manifestsOf _,
        (db.intents ++ [_]).filter _⟩
      rw [List.filter_append, List.filter_singleton]
      by_cases hrr : r'.stepId = lease.stepId
      · obtain rfl := eq_of_stepId_eq hinv.stepIds hr' hl.row_mem (hrr.trans hsid.symm)
        rw [decide_eq_true hrr.symm, cond_true, ← hrr]
        exact .registered (db.view r') ref hrun
      · rw [decide_eq_false (Ne.symm hrr), cond_false, List.append_nil]
        exact .same (db.view r')
  | committed scan lease refs job row db₁ hc hintents hnew hact =>
    exact Or.inr (view_committed hinv hc hintents hnew hact hr')
  | cancelled scan job _ _ =>
    right
    rw [cancelJob_eq] at hr' ⊢
    obtain ⟨r, hr, rfl⟩ := List.mem_map.mp hr'
    obtain ⟨h1, h2⟩ := cancelRow_ids now (selected db job.jobId fun r => r.state.waiting) r
    refine ⟨r, hr, h1, h2, fun j _ _ => view_cancel rfl ⟨rfl, rfl, rfl⟩ fun hmem => ?_⟩
    rw [StepState.active, ((mem_selected hinv.stepIds hr).mp hmem).2, Bool.true_or]
  | abandoned scan job row hl hrun =>
    right
    rw [cancelStep_eq, cancelJob_eq] at hr' ⊢
    obtain ⟨r₁, hr₁, rfl⟩ := List.mem_map.mp hr'
    obtain ⟨r, hr, rfl⟩ := List.mem_map.mp hr₁
    rw [cancelRow_append]
    obtain ⟨h1, h2⟩ := cancelRow_ids now
      ((selected db job.jobId fun r => r.state.waiting) ++ [row.stepId]) r
    refine ⟨r, hr, h1, h2, fun j _ _ => view_cancel ?_ ⟨rfl, rfl, rfl⟩ fun hmem => ?_⟩
    · show (db.attempts.map _).map _ = _
      rw [List.map_map]
      exact List.map_congr_left fun a _ => cancelAttempt_append now _ _ a
    · rcases List.mem_append.mp hmem with hmem | hmem
      · rw [StepState.active, ((mem_selected hinv.stepIds hr).mp hmem).2, Bool.true_or]
      · rw [eq_of_stepId_eq hinv.stepIds hr hl.row_mem (List.mem_singleton.mp hmem), hrun]
        rfl
  | settled scan job row _ hrow _ hrun _ =>
    right
    rw [cancelStep_eq] at hr' ⊢
    obtain ⟨r, hr, rfl⟩ := List.mem_map.mp hr'
    obtain ⟨h1, h2⟩ := cancelRow_ids now [row.stepId] r
    refine ⟨r, hr, h1, h2, fun j _ _ => view_cancel rfl ⟨rfl, rfl, rfl⟩ fun hmem => ?_⟩
    rw [eq_of_stepId_eq hinv.stepIds hr hrow (List.mem_singleton.mp hmem), hrun]
    rfl
  | enqueued row hrow =>
    right
    refine ⟨r', hr', rfl, rfl, fun j _ _ => ?_⟩
    show Move now _ _ (db.view r') ⟨r', db.attemptsOf _, (db.outbox ++ [_]).filter _, db.manifestsOf _,
      db.intentsOf _⟩
    rw [List.filter_append, List.filter_singleton]
    by_cases hrr : r'.stepId = row.stepId
    · rw [hrr, decide_eq_true rfl, cond_true, ← hrr]
      exact .notified (db.view r') _
    · rw [decide_eq_false (Ne.symm hrr), cond_false, List.append_nil]
      exact .same (db.view r')
  | delivered dispatchId stepId =>
    right
    refine ⟨r', hr', rfl, rfl, fun j _ _ => ?_⟩
    show Move now _ _ (db.view r') ⟨r', db.attemptsOf _, (db.outbox.map _).filter _, db.manifestsOf _,
      db.intentsOf _⟩
    rw [filter_key_map (deliverRow_stepId now dispatchId stepId)]
    by_cases hrr : r'.stepId = stepId
    · rw [← hrr]
      exact .delivered (db.view r') dispatchId
    · rw [map_filter_eq fun o ho => deliverRow_other (ho ▸ hrr)]
      exact .same (db.view r')

/-! ### Runs -/

/-- Every job was admitted with a valid request. -/
def Valid (env : Env U) (db : Ledger U) : Prop := ∀ j ∈ db.jobs, j.request.valid env.toIds = true

theorem valid_transition (hinv : Inv db) (h : Valid env db) (ht : Transition env now db db') :
    Valid env db' :=
  jobs_forall (fun j => j.request.valid env.toIds = true)
    (fun j j' hk hj => by rw [hk.request]; exact hj) hinv h ht
    fun _ _ _ _ _ ha => ha.valid

theorem policy_valid {a : Admission U} (h : a.valid env.toIds = true) : a.profile.retry.valid = true := by
  simp only [Admission.valid, ProcessingProfile.valid, Bool.and_eq_true] at h
  exact h.1.1.1.1.1.1.1.2.2

/-- The steps of a ledger, each with the retry policy of its job. -/
def AllViews (P : RetryPolicy → View U → Prop) (db : Ledger U) : Prop :=
  ∀ r ∈ db.steps, ∀ j ∈ db.jobs, j.jobId = r.jobId → P j.request.profile.retry (db.view r)

/-- What a new step has and every move keeps, every transition keeps. -/
theorem allViews_transition {P : RetryPolicy → View U → Prop} (hinv : Inv db) (href : Referenced db)
    (hvalid : Valid env db)
    (hfresh : ∀ policy v, policy.valid = true → Fresh now v → P policy v)
    (hmove : ∀ policy given v v', policy.valid = true → P policy v → Move now policy given v v' →
      P policy v')
    (h : AllViews P db) (ht : Transition env now db db') : AllViews P db' := by
  intro r' hr' j' hj' hid
  have hvalid' := policy_valid (valid_transition hinv hvalid ht j' hj')
  rcases view_transition hinv href ht r' hr' with hnew | ⟨r, hr, -, hjob, hm⟩
  · exact hfresh _ _ hvalid' hnew.fresh
  · -- the job of the step has the request it had
    obtain ⟨j, hj, hjr⟩ := hinv.exists_job hr
    obtain ⟨j₁, hj₁, hev⟩ := (evolves_transition hinv ht).jobs j hj
    obtain rfl : j₁ = j' := eq_of_jobId_eq (inv_transition hinv ht).jobIds hj₁ hj'
      (hev.jobId.trans (hjr.trans (hjob.symm.trans hid.symm)))
    rw [hev.request] at hvalid' ⊢
    exact hmove _ _ _ _ hvalid' (h r hr j hj hjr) (hm j hj hjr)

/-- The databases a run leads to. -/
structure Sound (env : Env U) (db : Ledger U) : Prop where
  inv : Inv db
  refs : Referenced db
  valid : Valid env db

theorem Sound.empty : Sound env (Ledger.empty : Ledger U) :=
  ⟨Inv.empty, Referenced.empty, fun _ hj => nomatch hj⟩

theorem sound_transition (h : Sound env db) (ht : Transition env now db db') : Sound env db' :=
  ⟨inv_transition h.inv ht, referenced_transition h.inv h.refs ht, valid_transition h.inv h.valid ht⟩

theorem sound_chain (h : Sound env db) (hc : ReflTransGen (Transition env now) db db') :
    Sound env db' :=
  run_invariant (Sound env) (fun _ _ => sound_transition) hc h

/-- What every transition keeps, every call keeps. -/
theorem step_sound (P : Ledger U → Prop) (c : Call U)
    (hstep : ∀ db db', Sound env db → P db → Transition env c.now db db' → P db')
    (h : Sound env db) (hP : P db) : Sound env (db.step env c).2 ∧ P (db.step env c).2 :=
  run_invariant (fun d => Sound env d ∧ P d)
    (fun d d' hd ht => ⟨sound_transition hd.1 ht, hstep d d' hd.1 hd.2 ht⟩)
    (step_chain h.inv c) ⟨h, hP⟩

/-- What every transition keeps, every run keeps. -/
theorem exec_sound (P : Ledger U → Prop)
    (hstep : ∀ now db db', Sound env db → P db → Transition env now db db' → P db')
    (calls : List (Call U)) (h : Sound env db) (hP : P db) :
    Sound env (db.exec env calls) ∧ P (db.exec env calls) := by
  induction calls generalizing db with
  | nil => exact ⟨h, hP⟩
  | cons c calls ih =>
    obtain ⟨hs, hP⟩ := step_sound P c (hstep c.now) h hP
    exact ih hs hP

end Polymind.Jobs
