import Polymind.Jobs.Equiv.Fencing
import Polymind.Jobs.Equiv.Machine
import Mathlib.Tactic.Linarith

/-!
# Bounds on retries

The attempts of a step, in the order in which they were started, are numbered and fenced from one on,
and only the last one can be open (`Tried`).  Every move keeps that: the moves that end an attempt
close the last one (`Tried.close`), and a claim opens the next (`Tried.start`), within the policy's
attempts and its budget of time.

* `retry_bounds`: the bounds, in every database a run leads to, and the delay a failure asks for.
-/

namespace Polymind.Jobs

open Relation

variable {U : Type} [DecidableEq U] {env : Env U} {db db' : Ledger U} {now : Time}
  {policy : RetryPolicy}

/-! ### The rounding of a duration -/

/-- `timedelta` rounds up by less than a microsecond. -/
theorem timedelta_lt {seconds : ℚ} (h : 0 ≤ seconds) :
    (timedelta seconds : ℚ) < seconds * 1000000 + 1 := by
  have hx : 0 ≤ seconds * 1000000 := by positivity
  have hfloor : ((⌊seconds * 1000000⌋.toNat : Nat) : ℚ) ≤ seconds * 1000000 := by
    have hcast : ((⌊seconds * 1000000⌋.toNat : Nat) : ℤ) = ⌊seconds * 1000000⌋ :=
      Int.toNat_of_nonneg (Int.floor_nonneg.mpr hx)
    have hle := Int.floor_le (seconds * 1000000)
    rw [← hcast] at hle
    exact_mod_cast hle
  unfold timedelta
  dsimp only
  split
  · linarith
  · rename_i hhalf
    have hup : ((⌊seconds * 1000000⌋.toNat + 1 : Nat) : ℚ) < seconds * 1000000 + 1 := by
      push_cast
      linarith
    split
    · exact hup
    · split
      · linarith
      · exact hup

/-! ### The attempts of a step -/

/-- What the attempts of a step are, against the retry policy of its job. -/
structure RetryBounds (policy : RetryPolicy) (r : StepRow U) (attempts : List (AttemptRow U)) :
    Prop where
  count : r.attemptCount = attempts.length
  fence : r.fence = attempts.length
  bounded : attempts.length ≤ policy.maxAttempts
  numbers : attempts.map AttemptRow.number = List.range' 1 attempts.length
  fences : attempts.map AttemptRow.fence = List.range' 1 attempts.length
  running : ∀ a ∈ attempts, a.outcome = .running ↔ a.number = attempts.length ∧ r.state = .running
  budget : ∀ first ∈ attempts, first.number = 1 → ∀ a ∈ attempts,
    (a.startedAt : ℚ) < first.startedAt + policy.budgetSeconds * 1000000
  spaced : ∀ a ∈ attempts, ∀ b ∈ attempts, b.number = a.number + 1 →
    ∃ t, a.notBefore = some t ∧ t ≤ b.startedAt
  delayed : ∀ a ∈ attempts, ∀ t, a.notBefore = some t → ∃ f, a.finishedAt = some f ∧ f ≤ t

/-- The bounds with what carries them from one attempt to the next. -/
structure Tried (policy : RetryPolicy) (v : View U) : Prop where
  bounds : RetryBounds policy v.row v.attempts
  first : ∀ a ∈ v.attempts, a.number = 1 → v.row.startedAt = some a.startedAt
  unstarted : v.attempts = [] → v.row.startedAt = none
  unclaimed : v.row.state = .pending ∨ v.row.state = .ready → v.attempts = []
  claimed : v.row.state = .running → v.attempts ≠ []
  opened : ∀ a ∈ v.attempts, a.outcome = .running → a.notBefore = none
  waiting : v.row.state = .retryWait → v.attempts.length < policy.maxAttempts ∧
    ∃ a ∈ v.attempts, a.number = v.attempts.length ∧ a.notBefore = some v.row.notBefore
  own : ∀ a ∈ v.attempts, a.stepId = v.row.stepId

section

variable {r : StepRow U} {attempts : List (AttemptRow U)}

omit [DecidableEq U] in
theorem RetryBounds.number_le (h : RetryBounds policy r attempts) {a : AttemptRow U}
    (ha : a ∈ attempts) : 1 ≤ a.number ∧ a.number ≤ attempts.length := by
  have hmem : a.number ∈ List.range' 1 attempts.length := h.numbers ▸ List.mem_map_of_mem ha
  have := List.mem_range'_1.mp hmem
  omega

omit [DecidableEq U] in
theorem RetryBounds.eq_of_number (h : RetryBounds policy r attempts) {a b : AttemptRow U}
    (ha : a ∈ attempts) (hb : b ∈ attempts) (hab : a.number = b.number) : a = b := by
  have hnd : (attempts.map AttemptRow.number).Nodup := by
    rw [h.numbers]
    exact List.nodup_range'
  exact List.inj_on_of_nodup_map hnd ha hb hab

omit [DecidableEq U] in
/-- An attempt's fence is its number. -/
theorem RetryBounds.fence_eq (h : RetryBounds policy r attempts) {a : AttemptRow U}
    (ha : a ∈ attempts) : a.fence = a.number := by
  have hmap : attempts.map AttemptRow.fence = attempts.map AttemptRow.number := by
    rw [h.numbers, h.fences]
  exact List.map_inj_left.mp hmap a ha

omit [DecidableEq U] in
/-- An attempt with a given number. -/
theorem RetryBounds.exists_number (h : RetryBounds policy r attempts) {n : Nat} (hpos : 1 ≤ n)
    (hle : n ≤ attempts.length) : ∃ a ∈ attempts, a.number = n := by
  have hmem : n ∈ List.range' 1 attempts.length := List.mem_range'_1.mpr (by omega)
  rw [← h.numbers] at hmem
  exact List.mem_map.mp hmem

omit [DecidableEq U] in
theorem RetryBounds.not_running (h : RetryBounds policy r attempts) (hs : r.state ≠ .running)
    {a : AttemptRow U} (ha : a ∈ attempts) : a.outcome ≠ .running :=
  fun hout => hs ((h.running a ha).mp hout).2

end

/-! ### The moves -/

/-- An attempt as it is closed: the last one, or untouched. -/
structure Closes (n : Nat) (a a' : AttemptRow U) : Prop where
  stepId : a'.stepId = a.stepId
  number : a'.number = a.number
  fence : a'.fence = a.fence
  startedAt : a'.startedAt = a.startedAt
  closed : a'.outcome ≠ .running
  last : a.number = n ∨ a' = a
  delayed : ∀ t, a'.notBefore = some t → ∃ f, a'.finishedAt = some f ∧ f ≤ t

omit [DecidableEq U] in
/-- Moves that leave no attempt open. -/
theorem Tried.close {v v' : View U} (h : Tried policy v) {k : AttemptRow U → AttemptRow U}
    (hattempts : v'.attempts = v.attempts.map k) (hid : v'.row.stepId = v.row.stepId)
    (hcount : v'.row.attemptCount = v.row.attemptCount) (hfence : v'.row.fence = v.row.fence)
    (hstarted : v'.row.startedAt = v.row.startedAt)
    (hstate : v'.row.state ≠ .running ∧ v'.row.state ≠ .ready ∧ v'.row.state ≠ .pending)
    (hk : ∀ a ∈ v.attempts, Closes v.attempts.length a (k a))
    (hwait : v'.row.state = .retryWait → v.attempts.length < policy.maxAttempts ∧
      ∃ a ∈ v.attempts, a.number = v.attempts.length ∧ (k a).notBefore = some v'.row.notBefore) :
    Tried policy v' := by
  obtain ⟨row, attempts, outbox, manifests, intents⟩ := v'
  obtain rfl : attempts = v.attempts.map k := hattempts
  dsimp only at hid hcount hfence hstarted hstate hwait
  have hb := h.bounds
  have hnumbers : (v.attempts.map k).map AttemptRow.number = v.attempts.map AttemptRow.number := by
    rw [List.map_map]
    exact List.map_congr_left fun a ha => (hk a ha).number
  have hfences : (v.attempts.map k).map AttemptRow.fence = v.attempts.map AttemptRow.fence := by
    rw [List.map_map]
    exact List.map_congr_left fun a ha => (hk a ha).fence
  refine ⟨⟨?_, ?_, ?_, ?_, ?_, ?_, ?_, ?_, ?_⟩, ?_, ?_, ?_, ?_, ?_, ?_, ?_⟩
  · rw [hcount, hb.count, List.length_map]
  · rw [hfence, hb.fence, List.length_map]
  · rw [List.length_map]
    exact hb.bounded
  · rw [hnumbers, List.length_map]
    exact hb.numbers
  · rw [hfences, List.length_map]
    exact hb.fences
  · rw [List.forall_mem_map]
    exact fun a ha => iff_of_false (hk a ha).closed fun hc => hstate.1 hc.2
  · intro first hfirst hone a ha
    obtain ⟨first₀, hf₀, rfl⟩ := List.mem_map.mp hfirst
    obtain ⟨a₀, ha₀, rfl⟩ := List.mem_map.mp ha
    rw [(hk first₀ hf₀).number] at hone
    rw [(hk first₀ hf₀).startedAt, (hk a₀ ha₀).startedAt]
    exact hb.budget first₀ hf₀ hone a₀ ha₀
  · intro a ha b hbmem hnext
    obtain ⟨a₀, ha₀, rfl⟩ := List.mem_map.mp ha
    obtain ⟨b₀, hb₀, rfl⟩ := List.mem_map.mp hbmem
    rw [(hk a₀ ha₀).number, (hk b₀ hb₀).number] at hnext
    -- an attempt with a successor is not the last one
    have hsame : k a₀ = a₀ := (hk a₀ ha₀).last.resolve_left fun hlast => by
      have := (hb.number_le hb₀).2
      omega
    rw [hsame, (hk b₀ hb₀).startedAt]
    exact hb.spaced a₀ ha₀ b₀ hb₀ hnext
  · rw [List.forall_mem_map]
    exact fun a ha => (hk a ha).delayed
  · intro a ha hone
    obtain ⟨a₀, ha₀, rfl⟩ := List.mem_map.mp ha
    rw [(hk a₀ ha₀).number] at hone
    rw [hstarted, (hk a₀ ha₀).startedAt]
    exact h.first a₀ ha₀ hone
  · intro hnil
    rw [List.map_eq_nil_iff] at hnil
    rw [hstarted, h.unstarted hnil]
  · exact fun hs => (hs.elim hstate.2.2 hstate.2.1).elim
  · exact fun hs => (hstate.1 hs).elim
  · rw [List.forall_mem_map]
    exact fun a ha hout => ((hk a ha).closed hout).elim
  · intro hs
    obtain ⟨hlt, a, ha, hnum, hbefore⟩ := hwait hs
    rw [List.length_map]
    exact ⟨hlt, k a, List.mem_map_of_mem ha, (hk a ha).number.trans hnum, hbefore⟩
  · rw [List.forall_mem_map]
    exact fun a ha => (hk a ha).stepId.trans ((h.own a ha).trans hid.symm)

omit [DecidableEq U] in
/-- An attempt that was closed already stays as it is. -/
theorem Closes.refl {v : View U} (h : Tried policy v) {a : AttemptRow U} (ha : a ∈ v.attempts)
    (hclosed : a.outcome ≠ .running) : Closes v.attempts.length a a :=
  ⟨rfl, rfl, rfl, rfl, hclosed, Or.inr rfl, h.bounds.delayed a ha⟩

omit [DecidableEq U] in
/-- Closing one attempt: it is the last one of a running step. -/
theorem Tried.closes {v : View U} (h : Tried policy v) (hrun : v.row.state = .running)
    {k : AttemptRow U → AttemptRow U} (hother : ∀ a ∈ v.attempts, a.fence ≠ v.row.fence → k a = a)
    (hlast : ∀ a ∈ v.attempts, a.fence = v.row.fence → a.outcome = .running →
      Closes v.attempts.length a (k a)) :
    ∀ a ∈ v.attempts, Closes v.attempts.length a (k a) := by
  intro a ha
  by_cases hfence : a.fence = v.row.fence
  · refine hlast a ha hfence ((h.bounds.running a ha).mpr ⟨?_, hrun⟩)
    rw [← h.bounds.fence_eq ha, hfence, h.bounds.fence]
  · rw [hother a ha hfence]
    refine Closes.refl h ha fun hout => hfence ?_
    rw [h.bounds.fence_eq ha, h.bounds.fence]
    exact ((h.bounds.running a ha).mp hout).1

omit [DecidableEq U] in
/-- The last attempt of a running step is among the closed ones. -/
theorem Tried.last {v : View U} (h : Tried policy v) (hrun : v.row.state = .running) :
    ∃ a ∈ v.attempts, a.number = v.attempts.length ∧ a.fence = v.row.fence := by
  have hpos : 1 ≤ v.attempts.length := List.length_pos_iff.mpr (h.claimed hrun)
  obtain ⟨a, ha, hnum⟩ := h.bounds.exists_number hpos (Nat.le_refl _)
  exact ⟨a, ha, hnum, by rw [h.bounds.fence_eq ha, hnum, h.bounds.fence]⟩

omit [DecidableEq U] in
/-- What the budget leaves: a further attempt starts before the deadline. -/
theorem startedAt_lt (hvalid : policy.valid = true) {r : StepRow U}
    (h : budgetSpent policy r now = .ok false) {t : Time} (ht : r.startedAt = some t) :
    (now : ℚ) < t + policy.budgetSeconds * 1000000 := by
  simp only [RetryPolicy.valid, Bool.and_eq_true, decide_eq_true_eq] at hvalid
  have hpos : 0 < policy.budgetSeconds := hvalid.1.1.1.2
  unfold budgetSpent at h
  rw [ht] at h
  obtain ⟨deadline, hplus, hlt⟩ := map_eq_ok.mp h
  have hdeadline := plus_eq_ok hplus
  have hlt : now < t + timedelta policy.budgetSeconds := by
    rw [hdeadline] at hlt
    exact Nat.lt_of_not_le (of_decide_eq_false hlt)
  -- whole microseconds: at the latest one before the rounded deadline
  have hle : ((now + 1 : Nat) : ℚ) ≤ ((t + timedelta policy.budgetSeconds : Nat) : ℚ) :=
    Nat.cast_le.mpr hlt
  have hround := timedelta_lt hpos.le
  push_cast at hle
  linarith

omit [DecidableEq U] in
theorem policy_pos (hvalid : policy.valid = true) :
    1 ≤ policy.maxAttempts ∧ 0 < policy.budgetSeconds := by
  simp only [RetryPolicy.valid, Bool.and_eq_true, decide_eq_true_eq] at hvalid
  exact ⟨hvalid.1.1.1.1.1.1.1.1.1, hvalid.1.1.1.2⟩

omit [DecidableEq U] in
/-- A waiting step has no open attempt, and may have one more. -/
theorem Tried.waits (hvalid : policy.valid = true) {v : View U} (h : Tried policy v)
    (hwait : v.row.state = .ready ∨ v.row.state = .retryWait) :
    v.attempts.length + 1 ≤ policy.maxAttempts ∧ v.row.state ≠ .running := by
  rcases hwait with hs | hs
  · rw [h.unclaimed (Or.inr hs), hs]
    exact ⟨(policy_pos hvalid).1, by decide⟩
  · rw [hs]
    exact ⟨(h.waiting hs).1, by decide⟩

/-- A claim opens the next attempt. -/
theorem Tried.start (hvalid : policy.valid = true) {v : View U} (h : Tried policy v) (owner : Str)
    (expires : Time) (hwait : v.row.state = .ready ∨ v.row.state = .retryWait)
    (hdue : v.row.notBefore ≤ now) (hbudget : budgetSpent policy v.row now = .ok false) :
    Tried policy { v with
      row := startRow now v.row owner expires v.row
      attempts := v.attempts ++ [startAttempt now v.row owner] } := by
  obtain ⟨r, as, os, ms, is⟩ := v
  dsimp only at hwait hdue hbudget ⊢
  have hb : RetryBounds policy r as := h.bounds
  obtain ⟨hmax, hnot⟩ := h.waits hvalid hwait
  have hstart : startRow now r owner expires r = { r with
      state := .running, attemptCount := r.attemptCount + 1, fence := r.fence + 1
      leaseOwner := some owner, leaseExpiresAt := some expires
      startedAt := some (r.startedAt.getD now), failureCategory := none } := if_pos rfl
  have hlen : (as ++ [startAttempt now r owner]).length = as.length + 1 := by simp
  have hnumber : (startAttempt now r owner).number = as.length + 1 := by
    rw [startAttempt, hb.count]
  have hnew : (startAttempt now r owner).fence = as.length + 1 := by
    rw [startAttempt, hb.fence]
  rw [hstart]
  refine ⟨⟨?_, ?_, ?_, ?_, ?_, ?_, ?_, ?_, ?_⟩, ?_, ?_, ?_, ?_, ?_, ?_, ?_⟩
  · show r.attemptCount + 1 = _
    rw [hlen, hb.count]
  · show r.fence + 1 = _
    rw [hlen, hb.fence]
  · rw [hlen]
    exact hmax
  · rw [hlen, List.map_append, hb.numbers, List.map_singleton, hnumber, List.range'_1_concat,
      Nat.add_comm 1]
  · rw [hlen, List.map_append, hb.fences, List.map_singleton, hnew, List.range'_1_concat,
      Nat.add_comm 1]
  · intro a ha
    rw [hlen]
    rcases List.mem_append.mp ha with ha | ha
    · -- the attempts of before are closed
      have hle := (hb.number_le ha).2
      exact iff_of_false (hb.not_running hnot ha) fun hc => by omega
    · rw [List.mem_singleton.mp ha]
      exact iff_of_true rfl ⟨hnumber, rfl⟩
  · intro first hfirst hone a ha
    have hpos := (policy_pos hvalid).2
    have hself : ∀ t : Time, (t : ℚ) < t + policy.budgetSeconds * 1000000 := fun t => by
      have : 0 < policy.budgetSeconds * 1000000 := by positivity
      linarith
    rcases List.mem_append.mp hfirst with hfirst | hfirst
    · rcases List.mem_append.mp ha with ha | ha
      · exact hb.budget first hfirst hone a ha
      · rw [List.mem_singleton.mp ha]
        exact startedAt_lt hvalid hbudget (h.first first hfirst hone)
    · -- the new attempt is the first one, and there is no other
      obtain rfl := List.mem_singleton.mp hfirst
      rw [hnumber] at hone
      have hnil : as = [] := List.length_eq_zero_iff.mp (by omega)
      rw [hnil, List.nil_append, List.mem_singleton] at ha
      rw [ha]
      exact hself now
  · intro a ha b hbmem hnext
    rcases List.mem_append.mp hbmem with hbmem | hbmem
    · have hle := (hb.number_le hbmem).2
      rcases List.mem_append.mp ha with ha | ha
      · exact hb.spaced a ha b hbmem hnext
      · rw [List.mem_singleton.mp ha, hnumber] at hnext
        omega
    · rw [List.mem_singleton.mp hbmem] at hnext ⊢
      rw [hnumber] at hnext
      rcases List.mem_append.mp ha with ha | ha
      · -- the step waited for its retry
        have hs : r.state = .retryWait := hwait.resolve_left fun hs => by
          have hnil : as = [] := h.unclaimed (Or.inr hs)
          rw [hnil] at ha
          cases ha
        obtain ⟨-, b, hbm, hbn, hbefore⟩ := h.waiting hs
        have hbn : b.number = as.length := hbn
        obtain rfl : b = a := hb.eq_of_number hbm ha (by omega)
        exact ⟨r.notBefore, hbefore, hdue⟩
      · rw [List.mem_singleton.mp ha, hnumber] at hnext
        omega
  · intro a ha t ht
    rcases List.mem_append.mp ha with ha | ha
    · exact hb.delayed a ha t ht
    · rw [List.mem_singleton.mp ha] at ht
      cases ht
  · intro a ha hone
    rcases List.mem_append.mp ha with ha | ha
    · have hfirst : r.startedAt = some a.startedAt := h.first a ha hone
      rw [hfirst]
      rfl
    · rw [List.mem_singleton.mp ha] at hone ⊢
      have hnil : as = [] := List.length_eq_zero_iff.mp (by omega)
      have hnone : r.startedAt = none := h.unstarted hnil
      rw [hnone]
      rfl
  · exact fun hnil => absurd hnil (by simp)
  · rintro (hs | hs) <;> cases hs
  · exact fun _ => by simp
  · intro a ha hout
    rcases List.mem_append.mp ha with ha | ha
    · exact absurd hout (hb.not_running hnot ha)
    · rw [List.mem_singleton.mp ha]
      rfl
  · intro hs
    cases hs
  · intro a ha
    rcases List.mem_append.mp ha with ha | ha
    · exact h.own a ha
    · rw [List.mem_singleton.mp ha]
      rfl

omit [DecidableEq U] in
/-- The bounds only read the attempts and some columns of the row. -/
theorem Tried.of_row {v v' : View U} (h : Tried policy v) (hattempts : v'.attempts = v.attempts)
    (hid : v'.row.stepId = v.row.stepId) (hcount : v'.row.attemptCount = v.row.attemptCount)
    (hfence : v'.row.fence = v.row.fence) (hstarted : v'.row.startedAt = v.row.startedAt)
    (hstate : v'.row.state = v.row.state) (hbefore : v'.row.notBefore = v.row.notBefore) :
    Tried policy v' := by
  obtain ⟨row, attempts, outbox, manifests, intents⟩ := v'
  obtain rfl : attempts = v.attempts := hattempts
  dsimp only at hid hcount hfence hstarted hstate hbefore
  have hb := h.bounds
  refine ⟨⟨by rw [hcount]; exact hb.count, by rw [hfence]; exact hb.fence, hb.bounded, hb.numbers,
    hb.fences, ?_, hb.budget, hb.spaced, hb.delayed⟩, ?_, ?_, ?_, ?_, h.opened, ?_, ?_⟩
  · rw [hstate]
    exact hb.running
  · rw [hstarted]
    exact h.first
  · rw [hstarted]
    exact h.unstarted
  · rw [hstate]
    exact h.unclaimed
  · rw [hstate]
    exact h.claimed
  · rw [hstate, hbefore]
    exact h.waiting
  · rw [hid]
    exact h.own

omit [DecidableEq U] in
/-- A step that was never claimed becomes ready. -/
theorem Tried.unclaimed_row {v v' : View U} (h : Tried policy v) (hnil : v.attempts = [])
    (hattempts : v'.attempts = v.attempts) (hcount : v'.row.attemptCount = v.row.attemptCount)
    (hfence : v'.row.fence = v.row.fence) (hstarted : v'.row.startedAt = v.row.startedAt)
    (hstate : v'.row.state = .ready) : Tried policy v' := by
  obtain ⟨row, attempts, outbox, manifests, intents⟩ := v'
  obtain rfl : attempts = v.attempts := hattempts
  dsimp only at hcount hfence hstarted hstate
  have hb := h.bounds
  rw [hnil] at hb ⊢
  refine ⟨⟨?_, ?_, hb.bounded, rfl, rfl, ?_, ?_, ?_, ?_⟩, ?_, ?_, ?_, ?_, ?_, ?_, ?_⟩
  · rw [hcount]
    exact hb.count
  · rw [hfence]
    exact hb.fence
  · simp
  · simp
  · simp
  · simp
  · simp
  · intro _
    rw [hstarted]
    exact h.unstarted hnil
  · exact fun _ => rfl
  · rw [hstate]
    simp
  · simp
  · rw [hstate]
    simp
  · simp

/-- Cancelling closes the open attempt, if there is one. -/
theorem Tried.cancel {v : View U} (h : Tried policy v) :
    Tried policy { v with
      row := v.row.cancelled now
      attempts := v.attempts.map (cancelAttempt now [v.row.stepId]) } := by
  refine Tried.close h rfl rfl rfl rfl rfl ⟨by simp [StepRow.cancelled], by simp [StepRow.cancelled],
    by simp [StepRow.cancelled]⟩ ?_ (by simp [StepRow.cancelled])
  intro a ha
  unfold cancelAttempt
  split
  · rename_i hc
    have hbefore := h.opened a ha hc.2
    refine ⟨rfl, rfl, rfl, rfl, by simp [AttemptRow.cancelled], ?_, ?_⟩
    · exact Or.inl ((h.bounds.running a ha).mp hc.2).1
    · intro t ht
      rw [show (a.cancelled now).notBefore = a.notBefore from rfl, hbefore] at ht
      cases ht
  · rename_i hc
    exact Closes.refl h ha fun hout => hc ⟨List.mem_singleton.mpr (h.own a ha), hout⟩

/-- A failure closes the attempt, with the delay it asks for if there is a retry. -/
theorem closes_closeAttempt {v : View U} (h : Tried policy v) (hrun : v.row.state = .running)
    (fault : SanitizedFailure) {outcome : Outcome} (hout : outcome ≠ .running) {notBefore : Option Time}
    (hdelay : ∀ t, notBefore = some t → now ≤ t) : ∀ a ∈ v.attempts,
      Closes v.attempts.length a (closeAttempt now v.row fault outcome notBefore a) := by
  refine h.closes hrun (fun a _ ha => if_neg fun hc => ha hc.2) fun a ha hfence hopen => ?_
  rw [closeAttempt, if_pos ⟨h.own a ha, hfence⟩]
  refine ⟨rfl, rfl, rfl, rfl, hout, Or.inl ((h.bounds.running a ha).mp hopen).1, ?_⟩
  exact fun t ht => ⟨now, rfl, hdelay t ht⟩

/-- Every move keeps the bounds. -/
theorem tried_move {v v' : View U} {given : StepRow U → Str → Prop} (hvalid : policy.valid = true)
    (h : Tried policy v) (hm : Move now policy given v v') : Tried policy v' := by
  cases hm with
  | same => exact h
  | activated key inputs sent hpend _ _ _ =>
    exact h.unclaimed_row (h.unclaimed (Or.inl hpend)) rfl rfl rfl rfl rfl
  | started owner expires hwait hdue hbudget =>
    exact h.start hvalid owner expires hwait hdue hbudget
  | renewed expires _ => exact h.of_row rfl rfl rfl rfl rfl rfl rfl
  | retried fault retryAt dispatchId hrun hdelay hattempts =>
    have hrow : retryRow v.row retryAt fault.category v.row = { v.row with
        state := .retryWait, notBefore := retryAt, failureCategory := some fault.category
        leaseOwner := none, leaseExpiresAt := none } := if_pos rfl
    rw [hrow]
    refine h.close rfl rfl rfl rfl rfl ⟨by simp, by simp, by simp⟩
      (closes_closeAttempt h hrun fault (by decide) ?_) fun _ => ?_
    · intro t ht
      obtain rfl := Option.some.inj ht
      exact Nat.le_trans (Nat.le_add_right now _) hdelay
    · -- the attempt that failed is the one the retry waits for
      obtain ⟨a, ha, hnum, hfence⟩ := h.last hrun
      refine ⟨h.bounds.count ▸ hattempts, a, ha, hnum, ?_⟩
      rw [closeAttempt, if_pos ⟨h.own a ha, hfence⟩]
  | failed fault category hrun =>
    refine h.close rfl rfl rfl rfl rfl ⟨by simp [StepRow.failedWith], by simp [StepRow.failedWith], by
      simp [StepRow.failedWith]⟩ (closes_closeAttempt h hrun fault (by decide) ?_)
      (by simp [StepRow.failedWith])
    intro t ht
    cases ht
  | spent category hwait =>
    have hnot : v.row.state ≠ .running := by
      rcases hwait with hs | hs <;> rw [hs] <;> decide
    refine h.close (List.map_id _).symm rfl rfl rfl rfl ⟨by simp [StepRow.failedWith], by
      simp [StepRow.failedWith], by simp [StepRow.failedWith]⟩ ?_ (by simp [StepRow.failedWith])
    exact fun a ha => Closes.refl h ha (h.bounds.not_running hnot ha)
  | cancelled _ => exact h.cancel
  | committed lease refs hrun hid hfence _ _ =>
    have hrow : commitRow now v.row.stepId v.row = { v.row with
        state := .succeeded, finishedAt := some now, leaseOwner := none
        leaseExpiresAt := none } := if_pos rfl
    rw [hrow]
    refine h.close rfl rfl rfl rfl rfl ⟨by simp, by simp, by simp⟩ ?_ (by simp)
    refine h.closes hrun (fun a _ ha => if_neg fun hc => ha (hc.2.trans hfence)) ?_
    intro a ha hlast hopen
    rw [commitAttempt, if_pos ⟨(h.own a ha).trans hid.symm, hlast.trans hfence.symm⟩]
    refine ⟨rfl, rfl, rfl, rfl, by simp, Or.inl ((h.bounds.running a ha).mp hopen).1, ?_⟩
    intro t ht
    have hbefore : a.notBefore = none := h.opened a ha hopen
    rw [show ({ a with outcome := .succeeded, finishedAt := some now } : AttemptRow U).notBefore
      = a.notBefore from rfl, hbefore] at ht
    cases ht
  | registered ref _ => exact h.of_row rfl rfl rfl rfl rfl rfl rfl
  | notified dispatchId => exact h.of_row rfl rfl rfl rfl rfl rfl rfl
  | delivered dispatchId => exact h.of_row rfl rfl rfl rfl rfl rfl rfl

omit [DecidableEq U] in
/-- A step that was never attempted. -/
theorem Tried.of_fresh {v : View U} (h : Fresh now v) : Tried policy v := by
  obtain ⟨row, attempts, outbox, manifests, intents⟩ := v
  obtain rfl : attempts = [] := h.attempts
  have hplanned : Planned row.jobId row := h.planned
  have hstate : row.state ≠ .running ∧ row.state ≠ .retryWait := by
    rcases hplanned.state with hs | hs | hs <;> rw [hs] <;> decide
  refine ⟨⟨hplanned.attemptCount, hplanned.fence, Nat.zero_le _, rfl, rfl, ?_, ?_, ?_, ?_⟩, ?_, ?_, ?_,
    ?_, ?_, ?_, ?_⟩
  · simp
  · simp
  · simp
  · simp
  · simp
  · exact fun _ => hplanned.startedAt
  · exact fun _ => rfl
  · exact fun hs => (hstate.1 hs).elim
  · simp
  · exact fun hs => (hstate.2 hs).elim
  · simp

/-- Every run keeps the bounds. -/
theorem tried_exec (calls : List (Call U)) (h : Sound env db) (hT : AllViews Tried db) :
    Sound env (db.exec env calls) ∧ AllViews Tried (db.exec env calls) :=
  exec_sound (AllViews Tried)
    (fun _ _ _ hs hall ht => allViews_transition hs.inv hs.refs hs.valid
      (fun _ _ _ => Tried.of_fresh) (fun _ _ _ _ hv hm => tried_move hv hm) hall ht)
    calls h hT

/-! ### Closed attempts stay -/

/-- A move leaves the closed attempts alone. -/
theorem closed_move {v v' : View U} {given : StepRow U → Str → Prop} (h : Tried policy v)
    (hm : Move now policy given v v') {a : AttemptRow U} (ha : a ∈ v.attempts) (hclosed : a.outcome ≠ .running) : a ∈ v'.attempts := by
  have hrunning : v.row.state = .running → a.fence ≠ v.row.fence := by
    intro hrun hfence
    refine hclosed ((h.bounds.running a ha).mpr ⟨?_, hrun⟩)
    rw [← h.bounds.fence_eq ha, hfence, h.bounds.fence]
  cases hm with
  | same => exact ha
  | activated => exact ha
  | started owner expires _ _ _ => exact List.mem_append_left _ ha
  | renewed => exact ha
  | retried fault retryAt dispatchId hrun _ _ =>
    exact List.mem_map.mpr ⟨a, ha, if_neg fun hc => hrunning hrun hc.2⟩
  | failed fault category hrun =>
    exact List.mem_map.mpr ⟨a, ha, if_neg fun hc => hrunning hrun hc.2⟩
  | spent => exact ha
  | cancelled _ => exact List.mem_map.mpr ⟨a, ha, if_neg fun hc => hclosed hc.2⟩
  | committed lease refs hrun _ hfence _ _ =>
    exact List.mem_map.mpr ⟨a, ha, if_neg fun hc => hrunning hrun (hc.2.trans hfence)⟩
  | registered => exact ha
  | notified => exact ha
  | delivered => exact ha

/-- A transition leaves the closed attempts alone. -/
theorem closed_transition (hs : Sound env db) (hall : AllViews Tried db)
    (ht : Transition env now db db') {a : AttemptRow U} (ha : a ∈ db.attempts)
    (hclosed : a.outcome ≠ .running) : a ∈ db'.attempts := by
  obtain ⟨r, hr, hid⟩ := List.mem_map.mp (hs.refs.attempts a ha)
  obtain ⟨j, hj, hjr⟩ := hs.inv.exists_job hr
  obtain ⟨r', hr', hev⟩ := (evolves_transition hs.inv ht).steps r hr
  rcases view_transition hs.inv hs.refs ht r' hr' with hnew | ⟨r₀, hr₀, hid₀, -, hm⟩
  · exact absurd (List.mem_map.mpr ⟨r, hr, hev.stepId.symm⟩) hnew.new
  · obtain rfl := eq_of_stepId_eq hs.inv.stepIds hr hr₀ (hev.stepId.symm.trans hid₀)
    have hmem : a ∈ (db.view r).attempts := List.mem_filter.mpr ⟨ha, decide_eq_true hid.symm⟩
    exact (List.mem_filter.mp (closed_move (hall r hr j hj hjr) (hm j hj hjr) hmem hclosed)).1

/-! ### What a failure records -/

/-- The attempts after `_failure`. -/
theorem failure_attempts {scan : Scan U} {job : JobRow U} {row : StepRow U} {fault : SanitizedFailure}
    (hinv : Inv db) (h : failure env scan db job row fault now = .ok db') :
    ∃ (outcome : Outcome) (notBefore : Option Time) (ids : List U), outcome ≠ .running ∧
      (∀ t, notBefore = some t → now + fault.retryAfter.getD 0 ≤ t) ∧
      db'.attempts = (db.attempts.map (closeAttempt now row fault outcome notBefore)).map
        (cancelAttempt now ids) := by
  rcases failure_ok h with ⟨retryAt, hdelay, -, rfl⟩ | ⟨category, rfl⟩
  · refine ⟨.retryWait, some retryAt, [], by decide, ?_, ?_⟩
    · intro t ht
      rw [← Option.some.inj ht]
      exact hdelay
    · -- no attempt is cancelled
      refine (List.map_id _).symm.trans (List.map_congr_left fun a _ => ?_)
      exact (if_neg fun hc => nomatch hc.1).symm
  · rw [terminalFailure_eq _ _ _ _ _ _ (by exact hinv.stepIds)]
    exact ⟨.failed, none, siblings db row, by decide, fun _ ht => absurd ht (by simp), rfl⟩

/-- What `fail` leaves of the attempt it reports on. -/
structure Reported (lease : Lease U) (fault : Failure) (now : Time) (a : AttemptRow U) : Prop where
  stepId : a.stepId = lease.stepId
  fence : a.fence = lease.fence
  closed : a.outcome ≠ .running
  finishedAt : a.finishedAt = some now
  delayed : ∀ t, a.notBefore = some t → now + fault.sanitized.retryAfter.getD 0 ≤ t

theorem fail_reported {scan : Scan U} {lease : Lease U} {fault : Failure} (hs : Sound env db)
    (hall : AllViews Tried db) (h : fail env scan lease fault now db = .ok db') :
    ∃ a ∈ db'.attempts, Reported lease fault now a := by
  unfold fail at h
  simp only [bind_eq_ok] at h
  obtain ⟨⟨job, row⟩, hc, h⟩ := h
  obtain ⟨hl, hrun, hsid, -⟩ := onLive_of_checkLease hc
  have hfence : row.fence = lease.fence := (checkLease_ok hc).2.2.1
  have hT := hall row hl.row_mem job hl.job_mem hl.owner.symm
  obtain ⟨a, hmem, hnum, hlast⟩ := hT.last hrun
  have hopen := (hT.bounds.running a hmem).mpr ⟨hnum, hrun⟩
  have hid : a.stepId = row.stepId := hT.own a hmem
  have hlast : a.fence = row.fence := hlast
  have hmem : a ∈ db.attempts := (List.mem_filter.mp hmem).1
  simp only at h
  split at h
  · -- the attempt is cancelled with its job
    cases h
    have hattempts : (refresh scan (cancelStep now (cancelJob scan db job now) row) row.jobId
        now).attempts = (db.attempts.map (cancelAttempt now
          (selected db job.jobId fun r => r.state.waiting))).map (cancelAttempt now [row.stepId]) := by
      rw [cancelStep_eq, cancelJob_eq]
      rfl
    rw [hattempts, List.map_map]
    refine ⟨a.cancelled now, List.mem_map.mpr ⟨a, hmem, ?_⟩, ?_⟩
    · rw [Function.comp, cancelAttempt_append, cancelAttempt, if_pos]
      exact ⟨List.mem_append_right _ (List.mem_singleton.mpr hid), hopen⟩
    · refine ⟨hid.trans hsid, hlast.trans hfence, by simp [AttemptRow.cancelled], rfl, ?_⟩
      intro t ht
      have hbefore : a.notBefore = none := hT.opened a (List.mem_filter.mpr
        ⟨hmem, decide_eq_true hid⟩) hopen
      rw [show (a.cancelled now).notBefore = a.notBefore from rfl, hbefore] at ht
      cases ht
  · obtain ⟨outcome, notBefore, ids, hout, hdelay, hattempts⟩ := failure_attempts hs.inv h
    rw [hattempts, List.map_map]
    refine ⟨_, List.mem_map.mpr ⟨a, hmem, rfl⟩, ?_⟩
    rw [Function.comp, closeAttempt, if_pos ⟨hid, hlast⟩, cancelAttempt,
      if_neg fun hc => hout hc.2]
    exact ⟨hid.trans hsid, hlast.trans hfence, hout, rfl, hdelay⟩

/-! ### The main result -/

theorem tried_reachable (calls : List (Call U)) :
    Sound env (Ledger.empty.exec env calls) ∧ AllViews Tried (Ledger.empty.exec env calls) :=
  tried_exec calls Sound.empty fun _ hr => nomatch hr

/-- Retry bounds, in every state of every history of calls: the attempts of a step are counted by
`attempt_count` and `fence`, numbered and fenced from one on, no more than the policy allows; the last
one is `RUNNING` exactly when the step is; none was started after the budget, or before the delay of
the one before it; and the attempt `fail` reported on keeps a delay of at least `retry_after` from the
failure on. -/
theorem retry_bounds (env : Env U) :
    (∀ calls : List (Call U), ∀ r ∈ (Ledger.empty.exec env calls).steps,
      ∃ j ∈ (Ledger.empty.exec env calls).jobs, j.jobId = r.jobId ∧
        RetryBounds j.request.profile.retry r
          ((Ledger.empty.exec env calls).attemptsOf r.stepId)) ∧
    ∀ (calls later : List (Call U)) (lease : Lease U) (fault : Failure) (now : Time) (scan : Scan U),
      (Ledger.empty.exec env calls).Returns env ⟨.fail lease fault, now, scan⟩ .none →
      ∃ a ∈ (Ledger.empty.exec env (calls ++ ⟨.fail lease fault, now, scan⟩ :: later)).attempts,
        Reported lease fault now a := by
  refine ⟨fun calls r hr => ?_, fun calls later lease fault now scan h => ?_⟩
  · obtain ⟨hs, hall⟩ : Sound env _ ∧ AllViews Tried _ := tried_reachable calls
    obtain ⟨j, hj, hjr⟩ := hs.inv.exists_job hr
    exact ⟨j, hj, hjr, (hall r hr j hj hjr).bounds⟩
  · obtain ⟨hs, hall⟩ : Sound env _ ∧ AllViews Tried _ := tried_reachable calls
    obtain ⟨db', hdb', hstep⟩ := map_eq_ok.mp (returns_body h)
    obtain rfl := congrArg Prod.snd hstep
    obtain ⟨a, ha, hrep⟩ := fail_reported hs hall hdb'
    obtain ⟨hs', hall'⟩ := tried_exec [⟨.fail lease fault, now, scan⟩] hs hall
    rw [exec_append, exec_cons]
    rw [exec_cons] at hs' hall'
    -- the attempt is closed, and stays
    have hstay := exec_sound (fun d => AllViews Tried d ∧ a ∈ d.attempts)
      (fun now d d' hs hd ht => ⟨allViews_transition hs.inv hs.refs hs.valid
        (fun _ _ _ => Tried.of_fresh) (fun _ _ _ _ hv hm => tried_move hv hm) hd.1 ht,
        closed_transition hs hd.1 ht hd.2 hrep.closed⟩) later hs' ⟨hall', ha⟩
    exact ⟨a, hstay.2.2, hrep⟩

end Polymind.Jobs
