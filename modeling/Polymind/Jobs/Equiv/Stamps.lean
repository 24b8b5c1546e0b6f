import Polymind.Jobs.Stamps
import Polymind.Jobs.Equiv.Times

/-!
# Stored timestamps order like time

* `stamp_eq_ok_iff`: the texts that `stamp` gives are those of the times up to `datetime.max`;
* `keyLe_column`, `binaryLe_column`: they are ordered like the times, in Python and in SQL;
* `Textual.decidesByTime`: a decision on the texts of a database is the decision on its times;
* `stamps_chronological`: so it is in every database that calls lead to.
-/

namespace Polymind.Jobs

open Json

/-! ### Stamps -/

/-- The text order as an ordering, from `le`. -/
def orderingOf (le : Str → Str → Bool) (s t : Str) : Ordering :=
  if le s t then if le t s then .eq else .lt else .gt

theorem column_eq {t : Time} (h : t ≤ Datetime.maxWall) :
    column t = (Datetime.ofWall t h (some .utc)).isoformatMicroseconds := dif_pos h

/-- A datetime in UTC is made of its time. -/
theorem isoformatMicroseconds_eq_column {value : Datetime} (h : value.tzinfo = some .utc) :
    value.isoformatMicroseconds = column value.wall := by
  rw [column_eq value.wall_le, ← h, Datetime.ofWall_wall]

/-- `stamp` gives the text of the instant, when that is a time. -/
theorem stamp_eq_ok_iff {value : Datetime} {text : Str} : stamp value = .ok text ↔
    ∃ t : Time, t ≤ Datetime.maxWall ∧ value.instant = some (t : Int) ∧ text = column t := by
  unfold stamp Datetime.instant
  cases hoffset : value.utcoffset with
  | none =>
    constructor
    · intro h
      cases h
    · rintro ⟨t, -, ht, -⟩
      cases ht
  | some offset =>
    simp only [Option.map_some, Option.some.injEq]
    rcases Datetime.astimezone_cases hoffset with ⟨hnone, hrange⟩ | ⟨shifted, hsome, hutc, hwall⟩
    · rw [hnone]
      constructor
      · intro h
        cases h
      · rintro ⟨t, ht, hinstant, -⟩
        rw [hinstant] at hrange
        exact absurd ⟨Int.natCast_nonneg t, Int.ofNat_le.mpr ht⟩ hrange
    · rw [hsome]
      simp only [Except.ok.injEq]
      rw [isoformatMicroseconds_eq_column hutc, ← hwall]
      constructor
      · rintro rfl
        exact ⟨shifted.wall, shifted.wall_le, rfl, rfl⟩
      · rintro ⟨t, -, ht, rfl⟩
        rw [Int.natCast_inj.mp ht]

/-! ### The order of the texts -/

variable {s t : Nat}

theorem keyLe_column (hs : s ≤ Datetime.maxWall) (ht : t ≤ Datetime.maxWall) :
    keyLe (column s) (column t) = decide (s ≤ t) := by
  rw [column_eq hs, column_eq ht, Bool.eq_iff_iff, Datetime.keyLe_isoformatMicroseconds rfl rfl,
    Datetime.wall_ofWall, Datetime.wall_ofWall, decide_eq_true_eq]

theorem ascii_column (ht : t ≤ Datetime.maxWall) : ∀ c ∈ column t, c.toNat < 128 := by
  rw [column_eq ht]
  exact fun c => Datetime.ascii_isoformatMicroseconds

theorem binaryLe_column (hs : s ≤ Datetime.maxWall) (ht : t ≤ Datetime.maxWall) :
    binaryLe (column s) (column t) = decide (s ≤ t) := by
  rw [binaryLe_eq_keyLe (ascii_column hs) (ascii_column ht), keyLe_column hs ht]

/-- Texts in neither order are in the other. -/
theorem not_binaryLe_column (hs : s ≤ Datetime.maxWall) (ht : t ≤ Datetime.maxWall) :
    (!binaryLe (column s) (column t)) = decide (t < s) := by
  rw [binaryLe_column hs ht, ← decide_not]
  simp only [not_le]

theorem timeOf_column (h : t ≤ Datetime.maxWall) :
    timeOf (column t) = .ok (Datetime.ofWall t h (some .utc)) := by
  unfold timeOf
  rw [column_eq h, Datetime.fromisoformat_isoformatMicroseconds rfl]

/-- An order that agrees with time compares like it. -/
theorem orderingOf_column {le : Str → Str → Bool} (hst : le (column s) (column t) = decide (s ≤ t))
    (hts : le (column t) (column s) = decide (t ≤ s)) :
    orderingOf le (column s) (column t) = compare (s : Int) (t : Int) := by
  unfold orderingOf
  rw [hst, hts]
  rcases Nat.lt_trichotomy s t with h | rfl | h
  · rw [if_pos (decide_eq_true h.le), if_neg (by simpa using h)]
    exact (compare_lt_iff_lt.mpr (Int.ofNat_lt.mpr h)).symm
  · rw [if_pos (decide_eq_true (le_refl s)), if_pos (decide_eq_true (le_refl s))]
    exact (compare_eq_iff_eq.mpr rfl).symm
  · rw [if_neg (by simpa using h)]
    exact (compare_gt_iff_gt.mpr (Int.ofNat_lt.mpr h)).symm

/-! ### Sums -/

/-- A sum overflows, or is a time and its text is stored. -/
theorem plusDelta_cases (ht : t ≤ Datetime.maxWall) (delta : Int) :
    (plusDelta (Datetime.ofWall t ht (some .utc)) delta = .error .overflowError ∧
      ¬(0 ≤ (t : Int) + delta ∧ (t : Int) + delta ≤ (Datetime.maxWall : Int))) ∨
    ∃ later, plusDelta (Datetime.ofWall t ht (some .utc)) delta = .ok later ∧
      later.tzinfo = some .utc ∧ (later.wall : Int) = t + delta := by
  have hcases := Datetime.add_cases (Datetime.ofWall t ht (some .utc)) delta
  rw [Datetime.wall_ofWall] at hcases
  unfold plusDelta
  rcases hcases with ⟨hnone, hrange⟩ | ⟨later, hlater, hutc, hwall⟩
  · rw [hnone]
    exact Or.inl ⟨rfl, hrange⟩
  · rw [hlater]
    exact Or.inr ⟨later, rfl, hutc, hwall⟩

theorem stamp_utc {value : Datetime} (h : value.tzinfo = some .utc) :
    stamp value = .ok (column value.wall) :=
  stamp_eq_ok_iff.mpr ⟨value.wall, value.wall_le, Datetime.instant_utc h, rfl⟩

theorem stampAfter_column (ht : t ≤ Datetime.maxWall) (delta : Int) :
    stampAfter (column t) delta
      = (plusDelta (Datetime.ofWall t ht (some .utc)) delta >>= stamp) := by
  unfold stampAfter
  rw [timeOf_column ht, ok_bind]

/-- A sum of datetimes is the sum of their times. -/
theorem plusDelta_plus (ht : t ≤ Datetime.maxWall) (d : Nat) :
    (plusDelta (Datetime.ofWall t ht (some .utc)) d = .error .overflowError ∧
      Time.plus t d = .error .overflowError) ∨
    ∃ later, plusDelta (Datetime.ofWall t ht (some .utc)) d = .ok later ∧
      later.tzinfo = some .utc ∧ Time.plus t d = .ok later.wall := by
  rw [Time.plus, maxTime_eq]
  rcases plusDelta_cases ht (d : Int) with ⟨herror, hrange⟩ | ⟨later, hlater, hutc, hwall⟩
  · refine Or.inl ⟨herror, if_neg ?_⟩
    intro hle
    exact hrange ⟨by omega, by omega⟩
  · have hsum : later.wall = t + d := by omega
    refine Or.inr ⟨later, hlater, hutc, ?_⟩
    rw [if_pos (hsum ▸ later.wall_le), hsum]

/-- `stamp(time_of(t) + timedelta(microseconds=d))` is the sum of times. -/
theorem stampAfter_plus (ht : t ≤ Datetime.maxWall) (d : Nat) :
    stampAfter (column t) d = (Time.plus t d).map column := by
  rw [stampAfter_column ht]
  rcases plusDelta_plus ht d with ⟨herror, hplus⟩ | ⟨later, hlater, hutc, hplus⟩
  · rw [herror, hplus, error_bind, Except.map]
  · rw [hlater, hplus, ok_bind, stamp_utc hutc, Except.map]

theorem stampAfter_minus (ht : t ≤ Datetime.maxWall) (d : Nat) :
    stampAfter (column t) (-d) = (Time.minus t d).map column := by
  rw [stampAfter_column ht, Time.minus]
  rcases plusDelta_cases ht (-(d : Int)) with ⟨herror, hrange⟩ | ⟨later, hlater, hutc, hwall⟩
  · have hlt : ¬d ≤ t := by
      intro hle
      exact hrange ⟨by omega, by omega⟩
    rw [herror, if_neg hlt, error_bind, Except.map]
  · have hdiff : later.wall = t - d := by omega
    rw [hlater, if_pos (show d ≤ t by omega), ok_bind, stamp_utc hutc, hdiff, Except.map]

theorem minus_le {d u : Nat} (h : Time.minus t d = .ok u) : u ≤ t := by
  unfold Time.minus at h
  split at h
  · rw [← Except.ok.inj h]
    exact Nat.sub_le t d
  · cases h

/-! ### The greatest text -/

theorem maxText_column (hs : s ≤ Datetime.maxWall) (ht : t ≤ Datetime.maxWall) :
    maxText (column s) (column t) = column (max s t) := by
  unfold maxText
  rw [keyLe_column ht hs]
  rcases Nat.le_total t s with h | h
  · rw [if_pos (decide_eq_true h), max_eq_left h]
  · rcases Nat.lt_or_eq_of_le h with hlt | rfl
    · rw [if_neg (by simpa using hlt), max_eq_right h]
    · rw [if_pos (decide_eq_true (le_refl s)), max_self]

/-- `MAX` of a column is the text of the latest time. -/
theorem sqlMax_column {times : List Time} (h : ∀ t ∈ times, t ≤ Datetime.maxWall) :
    sqlMax (times.map column) = times.max?.map column := by
  have hfold : ∀ (times : List Time) (s : Time), s ≤ Datetime.maxWall →
      (∀ t ∈ times, t ≤ Datetime.maxWall) →
      (times.map column).foldl (fun m t => if binaryLe m t then t else m) (column s)
        = column (times.foldl max s) := by
    intro times
    induction times with
    | nil => intro s _ _; rfl
    | cons t times ih =>
      intro s hs htimes
      have ht := htimes t (List.mem_cons_self ..)
      have hstep : (if binaryLe (column s) (column t) then column t else column s)
          = column (max s t) := by
        rw [binaryLe_column hs ht]
        rcases Nat.le_total s t with h | h
        · rw [if_pos (decide_eq_true h), max_eq_right h]
        · rcases Nat.lt_or_eq_of_le h with hlt | rfl
          · rw [if_neg (by simpa using hlt), max_eq_left h]
          · rw [if_pos (decide_eq_true (le_refl t)), max_self]
      rw [List.map_cons, List.foldl_cons, List.foldl_cons, hstep]
      exact ih _ (max_le hs ht) fun u hu => htimes u (List.mem_cons_of_mem _ hu)
  cases times with
  | nil => rfl
  | cons t times =>
    rw [List.map_cons, sqlMax, List.max?_cons', Option.map_some,
      hfold times t (h t (List.mem_cons_self ..)) fun u hu => h u (List.mem_cons_of_mem _ hu)]

/-! ### Decisions -/

theorem any_congr_mem {α : Type} {rows : List α} {p q : α → Bool}
    (h : ∀ r ∈ rows, p r = q r) : rows.any p = rows.any q := by
  induction rows with
  | nil => rfl
  | cons r rows ih =>
    rw [List.any_cons, List.any_cons, h r (List.mem_cons_self ..),
      ih fun r' hr' => h r' (List.mem_cons_of_mem _ hr')]

namespace Textual

variable {U : Type} [DecidableEq U] {env : Env U} {db : Ledger U} {now : Nat}

omit [DecidableEq U] in
theorem expired_column {r : StepRow U} (hr : StepTimed r) (hnow : now ≤ Datetime.maxWall) :
    expired (column now) r = r.expired now := by
  unfold expired StepRow.expired
  cases hlease : r.leaseExpiresAt with
  | none => rfl
  | some expires => exact keyLe_column (hr.leaseExpiresAt expires hlease) hnow

omit [DecidableEq U] in
theorem due_column {r : StepRow U} (hr : StepTimed r) (hnow : now ≤ Datetime.maxWall) :
    due (column now) r = decide (r.notBefore ≤ now) :=
  keyLe_column hr.notBefore hnow

omit [DecidableEq U] in
theorem budgetSpent_column {r : StepRow U} (hr : StepTimed r) (hnow : now ≤ Datetime.maxWall)
    (policy : RetryPolicy) : budgetSpent policy r (column now) = Jobs.budgetSpent policy r now := by
  unfold budgetSpent Jobs.budgetSpent
  cases hstarted : r.startedAt with
  | none => rfl
  | some started =>
    simp only
    rw [timeOf_column hnow, timeOf_column (hr.startedAt started hstarted), ok_bind, ok_bind]
    rcases plusDelta_plus (hr.startedAt started hstarted) (timedelta policy.budgetSeconds) with
      ⟨herror, hplus⟩ | ⟨later, hlater, hutc, hplus⟩
    · rw [herror, hplus, error_bind, Except.map]
    · have hcompare : notBefore (Datetime.ofWall now hnow (some .utc)) later
          = decide (later.wall ≤ now) := by
        unfold notBefore
        rw [Datetime.instant_utc hutc, Datetime.instant_utc rfl, Datetime.wall_ofWall]
        simp only [Int.ofNat_le]
      rw [hlater, hplus, ok_bind, hcompare, Except.map]

/-- The deadline of a retry. -/
theorem retriesInTime_column {started : Nat} (hstarted : started ≤ Datetime.maxWall) (hnow : now ≤ Datetime.maxWall)
    (policy : RetryPolicy) (delay : Nat) :
    retriesInTime policy started delay (column now) = (do
      let retryAt ← Time.plus now delay
      let deadline ← Time.plus started (timedelta policy.budgetSeconds)
      .ok (decide (retryAt < deadline))) := by
  unfold retriesInTime
  rw [stampAfter_plus hnow, stampAfter_plus hstarted]
  cases hretry : Time.plus now delay with
  | error e => rfl
  | ok retryAt =>
    cases hdeadline : Time.plus started (timedelta policy.budgetSeconds) with
    | error e => rfl
    | ok deadline =>
      show Except.ok (!keyLe (column deadline) (column retryAt)) = Except.ok (decide (retryAt < deadline))
      rw [keyLe_column (plus_le_maxWall hdeadline) (plus_le_maxWall hretry), ← decide_not]
      simp only [not_le]

theorem nextExecution_column (h : Timed db) (hnow : now ≤ Datetime.maxWall) (scope : Str) (versionId : U) :
    nextExecution db scope versionId (column now)
      = (Jobs.nextExecution db scope versionId now).map column := by
  have htimes : ∀ t ∈ (versionSteps db scope versionId).map StepRow.executionAt,
      t ≤ Datetime.maxWall := by
    intro t ht
    obtain ⟨r, hr, rfl⟩ := List.mem_map.mp ht
    exact (h.steps r (List.mem_of_mem_filter hr)).executionAt
  have hmax := sqlMax_column htimes
  rw [List.map_map] at hmax
  unfold nextExecution Jobs.nextExecution
  rw [show (fun r : StepRow U => column r.executionAt) = column ∘ StepRow.executionAt from rfl, hmax]
  cases hlast : ((versionSteps db scope versionId).map StepRow.executionAt).max? with
  | none => rfl
  | some last =>
    have hle : last ≤ Datetime.maxWall := htimes last (List.max?_mem hlast)
    show (stampAfter (column last) (1 : Nat)).map (maxText (column now))
      = ((Time.plus last 1).map (max now)).map column
    rw [stampAfter_plus hle]
    cases hplus : Time.plus last 1 with
    | error e => rfl
    | ok later => exact congrArg Except.ok (maxText_column hnow (plus_le_maxWall hplus))

/-! ### Queries -/

theorem pendingRows_column (h : Timed db) (hnow : now ≤ Datetime.maxWall) :
    pendingRows db (column now) = Jobs.pendingRows db now := by
  apply List.filter_congr
  intro o ho
  rw [binaryLe_column (h.outbox o ho).availableAt hnow]
  congr 1
  apply any_congr_mem
  intro r hr
  rw [binaryLe_column (h.steps r hr).notBefore hnow]

theorem orphanRows_column (h : Timed db) {cutoff : Nat} (hcutoff : cutoff ≤ Datetime.maxWall) :
    orphanRows db (column cutoff) = Jobs.orphanRows db cutoff := by
  apply List.filter_congr
  intro i hi
  rw [binaryLe_column (h.intents i hi) hcutoff]

theorem orphanBefore_column (h : Timed db) {a b : IntentRow U} (ha : a ∈ db.intents)
    (hb : b ∈ db.intents) : orphanBefore env a b = Jobs.orphanBefore env a b := by
  unfold orphanBefore Jobs.orphanBefore
  rw [not_binaryLe_column (h.intents b hb) (h.intents a ha),
    not_binaryLe_column (h.intents a ha) (h.intents b hb)]
  simp only [decide_eq_true_eq]

theorem orphans_column (h : Timed db) (hnow : now ≤ Datetime.maxWall) (limit : Nat) :
    orphans env db (column now) limit = Jobs.orphans env db now limit := by
  unfold orphans Jobs.orphans
  rw [stampAfter_minus hnow]
  cases hminus : Time.minus now env.orphanGraceMicros with
  | error e => rfl
  | ok cutoff =>
    have hsort : (Jobs.orphanRows db cutoff).insertionSort (fun a b => orphanBefore env a b = true)
        = (Jobs.orphanRows db cutoff).insertionSort fun a b => Jobs.orphanBefore env a b = true := by
      apply insertionSort_congr
      intro a ha b hb
      rw [orphanBefore_column h (List.mem_of_mem_filter ha) (List.mem_of_mem_filter hb)]
    rw [Except.map, ok_bind, ok_bind,
      orphanRows_column h ((minus_le hminus).trans hnow), hsort]

omit [DecidableEq U] in
theorem leaseOver_column {r : StepRow U} (hr : StepTimed r) (hnow : now ≤ Datetime.maxWall) :
    leaseOver (column now) r = r.expired now := by
  unfold leaseOver StepRow.expired
  cases hlease : r.leaseExpiresAt with
  | none => rfl
  | some expires => exact binaryLe_column (hr.leaseExpiresAt expires hlease) hnow

omit [DecidableEq U] in
theorem expiredRows_column (h : Timed db) (hnow : now ≤ Datetime.maxWall) (scan : Scan U)
    (limit : Nat) : expiredRows scan db (column now) limit = Jobs.expiredRows scan db now limit := by
  have hfilter : (db.steps.filter fun r => r.state = .running && leaseOver (column now) r)
      = db.steps.filter fun r => r.state = .running && r.expired now := by
    apply List.filter_congr
    intro r hr
    rw [leaseOver_column (h.steps r hr) hnow]
  unfold expiredRows Jobs.expiredRows
  rw [hfilter]
  congr 1
  apply insertionSort_congr
  -- every row has a lease, which has expired
  have hlease : ∀ r ∈ scan.order (db.steps.filter fun r => r.state = .running && r.expired now),
      ∃ t : Nat, r.leaseExpiresAt = some t ∧ t ≤ Datetime.maxWall := by
    intro r hr
    obtain ⟨hmem, hexp⟩ := List.mem_filter.mp ((scan.perm _).mem_iff.mp hr)
    rw [Bool.and_eq_true] at hexp
    unfold StepRow.expired at hexp
    cases hr : r.leaseExpiresAt with
    | none =>
      rw [hr] at hexp
      cases hexp.2
    | some t => exact ⟨t, rfl, (h.steps r hmem).leaseExpiresAt t hr⟩
  intro a ha b hb
  obtain ⟨s, hsome, hs⟩ := hlease a ha
  obtain ⟨t, hsome', ht⟩ := hlease b hb
  unfold leaseBefore
  rw [hsome, hsome']
  simp only
  rw [binaryLe_column hs ht, decide_eq_true_eq]
  rfl

theorem undispatchedRows_column (h : Timed db) {cutoff : Nat} (hnow : now ≤ Datetime.maxWall)
    (hcutoff : cutoff ≤ Datetime.maxWall) (scan : Scan U) (limit : Nat) :
    undispatchedRows scan db (column now) (column cutoff) limit
      = Jobs.undispatchedRows scan db now cutoff limit := by
  unfold undispatchedRows Jobs.undispatchedRows
  congr 2
  apply List.filter_congr
  intro r hr
  rw [binaryLe_column (h.steps r hr).notBefore hnow]
  congr 2
  apply any_congr_mem
  intro o ho
  congr 1
  unfold deliveredAfter
  cases hdelivered : o.deliveredAt with
  | none => rfl
  | some delivered =>
    exact not_binaryLe_column ((h.outbox o ho).deliveredAt delivered hdelivered) hcutoff

/-- What is decided on the texts of the database is what is decided on its times: by `_check_lease`,
`claim`, `_failure`, `admit`, `pending_dispatch`, `_orphans` and `reconcile`. -/
structure DecidesByTime (env : Env U) (db : Ledger U) (now : Nat) : Prop where
  expired : ∀ r ∈ db.steps, expired (column now) r = r.expired now
  due : ∀ r ∈ db.steps, due (column now) r = decide (r.notBefore ≤ now)
  budgetSpent : ∀ r ∈ db.steps, ∀ policy,
    budgetSpent policy r (column now) = Jobs.budgetSpent policy r now
  retriesInTime : ∀ r ∈ db.steps, ∀ started policy delay, r.startedAt = some started →
    retriesInTime policy started delay (column now) = (do
      let retryAt ← Time.plus now delay
      let deadline ← Time.plus started (timedelta policy.budgetSeconds)
      .ok (decide (retryAt < deadline)))
  nextExecution : ∀ scope versionId, nextExecution db scope versionId (column now)
    = (Jobs.nextExecution db scope versionId now).map column
  pendingRows : pendingRows db (column now) = Jobs.pendingRows db now
  orphans : ∀ limit, orphans env db (column now) limit = Jobs.orphans env db now limit
  expiredRows : ∀ scan limit,
    expiredRows scan db (column now) limit = Jobs.expiredRows scan db now limit
  undispatchedRows : ∀ scan limit cutoff, Time.minus now env.redeliveryMicros = .ok cutoff →
    stampAfter (column now) (-env.redeliveryMicros) = .ok (column cutoff) ∧
    undispatchedRows scan db (column now) (column cutoff) limit
      = Jobs.undispatchedRows scan db now cutoff limit

theorem decidesByTime (h : Timed db) (hnow : now ≤ Datetime.maxWall) : DecidesByTime env db now where
  expired r hr := expired_column (h.steps r hr) hnow
  due r hr := due_column (h.steps r hr) hnow
  budgetSpent r hr policy := budgetSpent_column (h.steps r hr) hnow policy
  retriesInTime r hr started policy delay hstarted :=
    retriesInTime_column ((h.steps r hr).startedAt started hstarted) hnow policy delay
  nextExecution scope versionId := nextExecution_column h hnow scope versionId
  pendingRows := pendingRows_column h hnow
  orphans limit := orphans_column h hnow limit
  expiredRows scan limit := expiredRows_column h hnow scan limit
  undispatchedRows scan limit cutoff hcutoff := by
    refine ⟨?_, undispatchedRows_column h hnow ((minus_le hcutoff).trans hnow) scan limit⟩
    rw [stampAfter_minus hnow, hcutoff, Except.map]

end Textual

/-- Stored timestamps order like time.  Two stamps compare, in Python and in SQL, as the instants do;
`time_of` gives back the instant; an aware datetime whose instant is in the years 1 to 9999 has a stamp;
and whatever calls a ledger has served, with a clock that reads such instants, its decisions on texts are
those on times. -/
theorem stamps_chronological {U : Type} [DecidableEq U] (env : Env U) :
    (∀ a b s t, stamp a = .ok s → stamp b = .ok t → ∃ i j, a.instant = some i ∧ b.instant = some j ∧
      orderingOf keyLe s t = compare i j ∧ orderingOf binaryLe s t = compare i j) ∧
    (∀ a s, stamp a = .ok s → ∃ b, timeOf s = .ok b ∧ b.instant = a.instant) ∧
    (∀ (a : Datetime) (i : Int), a.instant = some i → 0 ≤ i → i ≤ (maxTime : Int) →
      ∃ s, stamp a = .ok s) ∧
    ∀ calls : List (Call U), (∀ c ∈ calls, c.now ≤ maxTime) → ∀ now ≤ maxTime,
      Textual.DecidesByTime env (Ledger.empty.exec env calls) now := by
  refine ⟨?_, ?_, ?_, ?_⟩
  · intro a b s t ha hb
    obtain ⟨i, hi, hinstant, rfl⟩ := stamp_eq_ok_iff.mp ha
    obtain ⟨j, hj, hinstant', rfl⟩ := stamp_eq_ok_iff.mp hb
    refine ⟨i, j, hinstant, hinstant', ?_, ?_⟩
    · exact orderingOf_column (keyLe_column hi hj) (keyLe_column hj hi)
    · exact orderingOf_column (binaryLe_column hi hj) (binaryLe_column hj hi)
  · intro a s ha
    obtain ⟨i, hi, hinstant, rfl⟩ := stamp_eq_ok_iff.mp ha
    refine ⟨_, timeOf_column hi, ?_⟩
    rw [hinstant, Datetime.instant_utc rfl, Datetime.wall_ofWall]
  · intro a i hi hpos hle
    rw [maxTime_eq] at hle
    obtain ⟨n, rfl⟩ := Int.eq_ofNat_of_zero_le hpos
    have hn : n ≤ Datetime.maxWall := by omega
    exact ⟨_, stamp_eq_ok_iff.mpr ⟨n, hn, hi, rfl⟩⟩
  · intro calls hcalls now hnow
    rw [maxTime_eq] at hnow
    have hreadings : ∀ c ∈ calls, c.now ≤ Datetime.maxWall := by
      rw [maxTime_eq] at hcalls
      exact hcalls
    exact Textual.decidesByTime (timed_exec hreadings) hnow

end Polymind.Jobs
