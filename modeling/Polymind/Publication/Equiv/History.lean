import Polymind.Publication.Authority
import Mathlib.Data.List.Range

/-!
# The history of publications is linear

Every call of the authority in terms of its effect (`Moves`), and what every sequence of calls keeps.

* `linear_next`: the activations form a path from the empty publication to the active one, and every
  activated candidate is accepted;
* `stateOf_next`: an accepted candidate stays accepted and a stale one stays stale;
* `publication_history`: the history as a caller sees it, with retries and refusals.
-/

namespace Polymind.Publication.Authority

open Traces

variable {U : Type} [DecidableEq U] {db db' : Authority U}

/-! ### What a call does -/

/-- The effect of a call on the database. -/
inductive Moves (db : Authority U) : Call U → Authority U → Prop
  | nothing (c : Call U) : Moves db c db
  | registers (manifest : Manifest U) (ref : ObjectRef U) (hnew : db.candidate? manifest.generation = none)
      (hbase : db.active = manifest.base) :
      Moves db (.register manifest ref) { db with
        candidates := db.candidates ++ [⟨manifest.generation, ref, manifest.base, .preparing, none⟩] }
  | marks (generation : U) (state : CandidateState) (error : Option Str)
      (hstate : state = .ready ∨ state = .failed ∨ state = .stale) :
      Moves db (.mark generation state error) { db with
        candidates := Table.update (Authority.marks generation)
          (fun row => { row with state, error }) db.candidates }
  | activates (generation : U) (operation : Operation) (row : CandidateRow U)
      (hrow : db.candidate? generation = some row) (hadmits : admits db.active operation row = true) :
      Moves db (.activate generation db.active operation)
        { active := ⟨some generation, db.active.epoch + 1⟩
          candidates := Table.update (fun row => decide (row.generation = generation))
            (fun row => { row with state := .accepted, error := none }) db.candidates
          activations := db.activations ++ [⟨db.active.epoch + 1, generation, db.active, operation⟩] }

/-- How `activate` answers: it repeats, it refuses, or it writes. -/
theorem activate_cases (db : Authority U) (generation : U) (expected : ActivePublication U)
    (operation : Operation) :
    (expected.epoch + 1 < 2 ^ 63 ∧ db.repeats generation expected operation = true ∧
      activate generation expected operation db = .ok (some db.active, db)) ∨
    (∃ e, activate generation expected operation db = .error e) ∨
    expected = db.active ∧ expected.epoch + 1 < 2 ^ 63 ∧
      ∃ row, db.candidate? generation = some row ∧ admits expected operation row = true ∧
        activate generation expected operation db = db.write generation expected operation := by
  unfold activate
  by_cases hsize : 2 ^ 63 ≤ expected.epoch + 1
  · rw [if_pos hsize]
    exact Or.inr (Or.inl ⟨_, rfl⟩)
  rw [if_neg hsize]
  by_cases hrep : db.repeats generation expected operation = true
  · rw [if_pos hrep]
    exact Or.inl ⟨by omega, hrep, rfl⟩
  rw [if_neg hrep]
  apply Or.inr
  by_cases hexp : db.active ≠ expected
  · rw [if_pos hexp]
    exact Or.inl ⟨_, rfl⟩
  rw [if_neg hexp]
  cases hrow : db.candidate? generation with
  | none => exact Or.inl ⟨_, rfl⟩
  | some row =>
    by_cases hadm : admits expected operation row = true
    · refine Or.inr ⟨(not_not.mp hexp).symm, by omega, row, rfl, hadm, ?_⟩
      rw [Option.any_some, if_pos hadm]
    · rw [Option.any_some, if_neg hadm]
      exact Or.inl ⟨_, rfl⟩

theorem write_eq_ok {generation : U} {expected : ActivePublication U} {operation : Operation}
    {r : Option (ActivePublication U)} (h : db.write generation expected operation = .ok (r, db')) :
    r = some ⟨some generation, db.active.epoch + 1⟩ ∧ db' =
      { active := ⟨some generation, db.active.epoch + 1⟩
        candidates := Table.update (fun row => decide (row.generation = generation))
          (fun row => { row with state := .accepted, error := none }) db.candidates
        activations := db.activations ++ [⟨db.active.epoch + 1, generation, expected, operation⟩] } := by
  unfold write at h
  simp only at h
  split at h
  · cases h
  · simp only [Except.ok.injEq, Prod.mk.injEq] at h
    exact ⟨h.1.symm, h.2.symm⟩

theorem next_moves (db : Authority U) (c : Call U) : Moves db c (db.next c) := by
  apply transact_relates
  · exact .nothing c
  intro r db' h
  cases c with
  | register manifest ref =>
    unfold Call.body register at h
    simp only at h
    split at h
    · split at h
      · cases h
      · cases h
        exact .nothing _
    · next hnew =>
      split at h
      · cases h
      · next hbase =>
        cases h
        exact .registers manifest ref hnew (not_not.mp hbase)
  | mark generation state error =>
    unfold Call.body mark at h
    simp only at h
    split at h
    · cases h
    · next hstate =>
      cases h
      refine .marks generation state error ?_
      cases state <;> simp at hstate ⊢
  | activate generation expected operation =>
    replace h : activate generation expected operation db = .ok (r, db') := h
    rcases activate_cases db generation expected operation with
      ⟨-, -, heq⟩ | ⟨e, heq⟩ | ⟨rfl, -, row, hrow, hadm, heq⟩
    · rw [heq] at h
      cases h
      exact .nothing _
    · rw [heq] at h
      cases h
    · rw [heq] at h
      rw [(write_eq_ok h).2]
      exact .activates generation operation row hrow hadm

/-! ### The path of activations -/

/-- The activations lead from one publication to the other: each expects the publication before it
and makes the next one, one epoch later. -/
def Path : ActivePublication U → List (ActivationRow U) → ActivePublication U → Prop
  | s, [], t => s = t
  | s, row :: rows, t => row.expected = s ∧ row.epoch = s.epoch + 1 ∧ Path row.result rows t

section

omit [DecidableEq U]

variable {s t : ActivePublication U} {rows before after : List (ActivationRow U)}
  {row : ActivationRow U}

theorem path_append : Path s (before ++ after) t ↔ ∃ m, Path s before m ∧ Path m after t := by
  induction before generalizing s with
  | nil => simp [Path]
  | cons row before ih => simp [Path, ih, and_assoc]

theorem path_epochs (h : Path s rows t) :
    rows.map ActivationRow.epoch = List.range' (s.epoch + 1) rows.length ∧
      t.epoch = s.epoch + rows.length := by
  induction rows generalizing s with
  | nil =>
    obtain rfl : s = t := h
    simp
  | cons row rows ih =>
    obtain ⟨-, hepoch, hrest⟩ := h
    obtain ⟨hmap, hlast⟩ := ih hrest
    have hres : row.result.epoch = s.epoch + 1 := hepoch
    rw [hres] at hmap hlast
    constructor
    · rw [List.map_cons, hmap, hepoch, List.length_cons, List.range'_succ]
    · rw [hlast, List.length_cons]
      omega

/-- The path ends where its last activation leads. -/
theorem path_last (h : Path s rows t) : t = (rows.getLast?.map ActivationRow.result).getD s := by
  rcases List.eq_nil_or_concat rows with rfl | ⟨before, row, rfl⟩
  · exact (show s = t from h).symm
  · rw [List.concat_eq_append] at h ⊢
    obtain ⟨m, -, -, -, hend⟩ := path_append.mp h
    rw [List.getLast?_concat]
    exact (show row.result = t from hend).symm

/-- An activation expects what the one before it made. -/
theorem path_expected (h : Path s (before ++ row :: after) t) :
    row.expected = (before.getLast?.map ActivationRow.result).getD s := by
  obtain ⟨m, hbefore, hexp, -⟩ := path_append.mp h
  rw [hexp, path_last hbefore]

end

/-! ### What every call keeps -/

structure Linear (db : Authority U) : Prop where
  path : Path ⟨none, 0⟩ db.activations db.active
  keys : (db.candidates.map CandidateRow.generation).Nodup
  accepted : ∀ row ∈ db.activations, ∃ c ∈ db.candidates, c.generation = row.generation ∧
    c.state = .accepted ∧ (row.operation = .forward → c.base = row.expected)
  once : ((db.activations.filter fun row => row.operation = .forward).map
    ActivationRow.generation).Nodup

omit [DecidableEq U] in
theorem Linear.empty : Linear (empty : Authority U) := by
  constructor
  · exact rfl
  · exact List.nodup_nil
  · intro row hrow
    cases hrow
  · exact List.nodup_nil

theorem Linear.candidate?_iff (h : Linear db) {generation : U} {row : CandidateRow U} :
    db.candidate? generation = some row ↔ row ∈ db.candidates ∧ row.generation = generation :=
  Table.lookup_eq_some_iff h.keys

omit [DecidableEq U] in
theorem Linear.activation?_iff (h : Linear db) {epoch : Nat} {row : ActivationRow U} :
    db.activation? epoch = some row ↔ row ∈ db.activations ∧ row.epoch = epoch := by
  apply Table.lookup_eq_some_iff
  rw [(path_epochs h.path).1]
  exact List.nodup_range'

/-- A candidate with an activation is accepted. -/
theorem Linear.state_of_activation (h : Linear db) {generation : U} {row : CandidateRow U}
    (hrow : db.candidate? generation = some row) {event : ActivationRow U}
    (hevent : event ∈ db.activations) (hgen : event.generation = generation) :
    row.state = .accepted := by
  obtain ⟨hmem, hkey⟩ := h.candidate?_iff.mp hrow
  obtain ⟨c, hc, hcgen, hcstate, -⟩ := h.accepted event hevent
  have hsame : c = row := Table.eq_of_key h.keys hc hmem (by rw [hcgen, hgen, hkey])
  rw [← hsame, hcstate]

theorem linear_next (h : Linear db) (c : Call U) : Linear (db.next c) := by
  have hm := next_moves db c
  generalize db.next c = db' at hm
  cases hm with
  | nothing => exact h
  | registers manifest ref hnew hbase =>
    have hfresh := Table.lookup_eq_none.mp hnew
    constructor
    · exact h.path
    · exact Table.nodup_insert h.keys hfresh
    · intro row hrow
      obtain ⟨c, hc, hrest⟩ := h.accepted row hrow
      exact ⟨c, List.mem_append_left _ hc, hrest⟩
    · exact h.once
  | marks generation state error hstate =>
    constructor
    · exact h.path
    · exact Table.nodup_update (fun _ _ => rfl) h.keys
    · intro row hrow
      -- an accepted row is none of the updated ones
      obtain ⟨c, hc, hgen, hacc, hbase⟩ := h.accepted row hrow
      refine ⟨c, Table.mem_update.mpr (Or.inr ⟨hc, ?_⟩), hgen, hacc, hbase⟩
      simp [Authority.marks, hacc]
    · exact h.once
  | activates generation operation row hrow hadm =>
    obtain ⟨hmem, hgen⟩ := h.candidate?_iff.mp hrow
    constructor
    · exact path_append.mpr ⟨db.active, h.path, rfl, rfl, rfl⟩
    · exact Table.nodup_update (fun _ _ => rfl) h.keys
    · intro event hevent
      rcases List.mem_append.mp hevent with hold | hnew
      · obtain ⟨c, hc, hcgen, hacc, hbase⟩ := h.accepted event hold
        by_cases hsame : c.generation = generation
        · exact ⟨_, Table.mem_update.mpr (Or.inl ⟨c, hc, by simpa using hsame, rfl⟩), hcgen, rfl, hbase⟩
        · exact ⟨c, Table.mem_update.mpr (Or.inr ⟨hc, by simpa using hsame⟩), hcgen, hacc, hbase⟩
      · obtain rfl := List.mem_singleton.mp hnew
        refine ⟨_, Table.mem_update.mpr (Or.inl ⟨row, hmem, by simpa using hgen, rfl⟩), hgen, rfl, ?_⟩
        rintro rfl
        simp only [admits, Bool.and_eq_true, decide_eq_true_eq] at hadm
        exact hadm.2
    · rw [List.filter_append, List.map_append]
      by_cases hop : operation = .forward
      · -- a ready candidate has no activation yet
        have hready : row.state = .ready := by
          rw [hop] at hadm
          simp only [admits, Bool.and_eq_true, beq_iff_eq] at hadm
          exact hadm.1
        rw [List.nodup_append]
        refine ⟨h.once, by simp [hop], ?_⟩
        rintro a ha b hb rfl
        obtain ⟨event, hevent, rfl⟩ := List.mem_map.mp ha
        have hacc := h.state_of_activation hrow (List.mem_filter.mp hevent).1
          (by simpa [hop] using hb)
        rw [hready] at hacc
        cases hacc
      · simpa [hop] using h.once

theorem linear_run (calls : List (Call U)) : Linear (empty.run calls) :=
  exec_invariant Linear (fun _ c _ h => linear_next h c) (along_true empty calls) Linear.empty

/-! ### The states of the candidates -/

/-- The state of a candidate. -/
def stateOf (db : Authority U) (generation : U) : Option CandidateState :=
  (db.candidate? generation).map CandidateRow.state

/-- Accepted and stale are for ever. -/
theorem stateOf_next {generation : U} {state : CandidateState} (hstate : state = .accepted ∨ state = .stale)
    (h : db.stateOf generation = some state) (c : Call U) :
    (db.next c).stateOf generation = some state := by
  have hm := next_moves db c
  generalize db.next c = db' at hm
  obtain ⟨row, hrow, rfl⟩ := Option.map_eq_some_iff.mp h
  cases hm with
  | nothing => exact h
  | registers manifest ref hnew hbase =>
    unfold stateOf candidate? Table.lookup
    rw [List.find?_append, show List.find? _ db.candidates = some row from hrow]
    rfl
  | marks generation' state' error _ =>
    unfold stateOf candidate?
    rw [Table.lookup_update, show Table.lookup _ db.candidates generation = some row from hrow]
    · have hnot : Authority.marks generation' row = false := by
        rcases hstate with hs | hs <;> simp [Authority.marks, hs]
      simp [hnot]
    · intro _ _
      rfl
  | activates generation' operation row' hrow' hadm =>
    unfold stateOf candidate?
    rw [Table.lookup_update, show Table.lookup _ db.candidates generation = some row from hrow]
    · by_cases hsame : row.generation = generation'
      · -- the activated candidate was ready or accepted
        have hgen := (Table.lookup_mem hrow).2
        rw [← hsame, hgen, hrow] at hrow'
        obtain rfl := Option.some.inj hrow'
        have hacc : row.state = .accepted := by
          rcases hstate with hs | hs
          · exact hs
          · cases operation <;> simp [admits, hs] at hadm
        simp [hsame, hacc]
      · simp [hsame]
    · intro _ _
      rfl

theorem stateOf_run {generation : U} {state : CandidateState} (hstate : state = .accepted ∨ state = .stale)
    (h : db.stateOf generation = some state) (calls : List (Call U)) :
    (db.run calls).stateOf generation = some state :=
  exec_invariant (fun db => db.stateOf generation = some state)
    (fun _ c _ h => stateOf_next hstate h c) (along_true db calls) h

/-! ### Retries -/

/-- An activation on record stays on record. -/
theorem activations_run {event : ActivationRow U} (h : event ∈ db.activations) (calls : List (Call U)) :
    event ∈ (db.run calls).activations := by
  refine exec_invariant (fun db => event ∈ db.activations) (fun db c _ h => ?_) (along_true db calls) h
  have hm := next_moves db c
  generalize db.next c = db' at hm
  cases hm with
  | nothing => exact h
  | registers => exact h
  | marks => exact h
  | activates => exact List.mem_append_left _ h

/-- A retry is recognized as long as the result is active. -/
theorem repeats_of_event (h : Linear db) {generation : U} {expected : ActivePublication U}
    {operation : Operation}
    (hevent : ⟨expected.epoch + 1, generation, expected, operation⟩ ∈ db.activations)
    (hactive : db.active = ⟨some generation, expected.epoch + 1⟩) :
    db.repeats generation expected operation = true := by
  have hlookup := h.activation?_iff.mpr ⟨hevent, rfl⟩
  unfold repeats
  rw [hlookup, hactive]
  simp

/-- An activation that returned has its event on record, and returned the publication it made. -/
theorem activate_recorded {generation : U} {expected : ActivePublication U} {operation : Operation}
    {r : Option (ActivePublication U)}
    (h : (db.step (.activate generation expected operation)).1 = .ok r) :
    r = some ⟨some generation, expected.epoch + 1⟩ ∧ expected.epoch + 1 < 2 ^ 63 ∧
      ⟨expected.epoch + 1, generation, expected, operation⟩
        ∈ (db.next (.activate generation expected operation)).activations := by
  have hbody : ∃ db', activate generation expected operation db = .ok (r, db') ∧
      db.next (.activate generation expected operation) = db' :=
    ⟨_, transact_eq_ok.mp (Prod.ext h rfl), rfl⟩
  obtain ⟨db', hok, hnext⟩ := hbody
  rw [hnext]
  rcases activate_cases db generation expected operation with
    ⟨hsize, hrep, heq⟩ | ⟨e, heq⟩ | ⟨rfl, hsize, row, hrow, hadm, heq⟩
  · rw [heq] at hok
    cases hok
    unfold repeats at hrep
    rw [Bool.and_eq_true, decide_eq_true_eq, Option.any_eq_true] at hrep
    obtain ⟨hactive, event, hevent, heq'⟩ := hrep
    rw [decide_eq_true_eq] at heq'
    refine ⟨congrArg some hactive, hsize, ?_⟩
    rw [← heq']
    exact (Table.lookup_mem hevent).1
  · rw [heq] at hok
    cases hok
  · rw [heq] at hok
    obtain ⟨hr, rfl⟩ := write_eq_ok hok
    exact ⟨hr, hsize, List.mem_append_right _ (List.mem_singleton_self _)⟩

theorem step_of_repeats {generation : U} {expected : ActivePublication U} {operation : Operation}
    (hsize : expected.epoch + 1 < 2 ^ 63) (h : db.repeats generation expected operation = true) :
    db.step (.activate generation expected operation) = (.ok (some db.active), db) := by
  apply transact_of_ok
  show activate generation expected operation db = _
  unfold activate
  rw [if_neg (by omega), if_pos h]

theorem step_of_ne {generation : U} {expected : ActivePublication U} {operation : Operation}
    (hne : expected ≠ db.active) (h : db.repeats generation expected operation = false) :
    db.step (.activate generation expected operation)
      = (.error (if 2 ^ 63 ≤ expected.epoch + 1 then .overflow else .staleCandidate), db) := by
  apply transact_of_error
  show activate generation expected operation db = _
  unfold activate
  split
  · rfl
  · rw [if_neg (by simp [h]), if_pos (Ne.symm hne)]

/-! ### The main result -/

/-- The history that the tables show. -/
structure LinearHistory (db : Authority U) : Prop where
  /-- The epochs of the activations are `1, …, active.epoch`. -/
  epochs : db.activations.map ActivationRow.epoch = List.range' 1 db.active.epoch
  /-- The generation of the last activation is the active one. -/
  last : db.active.generation = db.activations.getLast?.map ActivationRow.generation
  /-- An activation expects the publication that the activation before it produced. -/
  expected : ∀ before row after, db.activations = before ++ row :: after →
    row.expected = (before.getLast?.map ActivationRow.result).getD ⟨none, 0⟩
  /-- The active generation is an accepted candidate. -/
  accepted : ∀ generation, db.active.generation = some generation →
    db.stateOf generation = some .accepted
  /-- A generation is forward-activated at most once. -/
  once : ∀ generation, (db.activations.filter fun row =>
    row.operation = .forward ∧ row.generation = generation).length ≤ 1
  /-- A forward activation expected the base of its candidate. -/
  base : ∀ row ∈ db.activations, row.operation = .forward →
    ∃ c, db.candidate? row.generation = some c ∧ c.base = row.expected
  /-- Of two candidates on one base at most one is forward-activated. -/
  competing : ∀ row ∈ db.activations, ∀ row' ∈ db.activations, row.operation = .forward →
    row'.operation = .forward → ∀ c c', db.candidate? row.generation = some c →
      db.candidate? row'.generation = some c' → c.base = c'.base → row = row'

theorem linearHistory (h : Linear db) : LinearHistory db := by
  have hlast : db.active = (db.activations.getLast?.map ActivationRow.result).getD ⟨none, 0⟩ :=
    path_last h.path
  have hbase : ∀ row ∈ db.activations, row.operation = .forward →
      ∃ c, db.candidate? row.generation = some c ∧ c.base = row.expected := by
    intro row hrow hop
    obtain ⟨c, hc, hgen, -, hb⟩ := h.accepted row hrow
    exact ⟨c, h.candidate?_iff.mpr ⟨hc, hgen⟩, hb hop⟩
  have hepochs := path_epochs h.path
  constructor
  · rw [hepochs.1, hepochs.2]
    simp
  · rw [hlast]
    cases db.activations.getLast? <;> rfl
  · intro before row after heq
    have hpath : Path ⟨none, 0⟩ (before ++ row :: after) db.active := by
      rw [← heq]
      exact h.path
    exact path_expected hpath
  · intro generation hgen
    rw [hlast] at hgen
    cases hrow : db.activations.getLast? with
    | none =>
      rw [hrow] at hgen
      cases hgen
    | some row =>
      rw [hrow] at hgen
      obtain ⟨c, hc, hcgen, hacc, -⟩ := h.accepted row (List.mem_of_getLast? hrow)
      have hgen' : row.generation = generation := Option.some.inj hgen
      unfold stateOf
      rw [h.candidate?_iff.mpr ⟨hc, hcgen.trans hgen'⟩]
      exact congrArg some hacc
  · intro generation
    have hcount := List.nodup_iff_count_le_one.mp h.once generation
    rw [List.count, List.countP_map, List.countP_filter, List.countP_eq_length_filter] at hcount
    refine le_trans (le_of_eq (congrArg List.length (List.filter_congr fun row _ => ?_))) hcount
    by_cases h1 : row.operation = .forward <;> by_cases h2 : row.generation = generation <;>
      simp [h1, h2]
  · exact hbase
  · intro row hrow row' hrow' hop hop' c c' hc hc' heq
    obtain ⟨c₁, hc₁, hb⟩ := hbase row hrow hop
    obtain ⟨c₁', hc₁', hb'⟩ := hbase row' hrow' hop'
    rw [hc] at hc₁
    rw [hc'] at hc₁'
    -- both expected the common base, and an epoch has one activation
    have hexp : row.expected = row'.expected := by
      rw [← hb, ← hb', ← Option.some.inj hc₁, ← Option.some.inj hc₁', heq]
    have hone : ∀ r ∈ db.activations, r.epoch = r.expected.epoch + 1 := by
      intro r hr
      obtain ⟨before, after, hsplit⟩ := List.append_of_mem hr
      have hp := h.path
      rw [hsplit] at hp
      obtain ⟨m, -, hexp', hep, -⟩ := path_append.mp hp
      rw [hep, hexp']
    have hnd : (db.activations.map ActivationRow.epoch).Nodup := by
      rw [hepochs.1]
      exact List.nodup_range'
    exact Table.eq_of_key hnd hrow hrow' (by rw [hone row hrow, hone row' hrow', hexp])

/-- After any sequence of calls: the history is linear; accepted and stale candidates stay so, whatever
calls follow; an activation repeated while its result is active returns that result and changes nothing;
and, the retry apart, an activation that expects another publication than the active one is refused and
changes nothing. -/
theorem publication_history (calls : List (Call U)) :
    LinearHistory (empty.run calls) ∧
    (∀ generation state later, state = .accepted ∨ state = .stale →
      (empty.run calls).stateOf generation = some state →
      ((empty.run calls).run later).stateOf generation = some state) ∧
    (∀ generation expected operation later r,
      ((empty.run calls).step (.activate generation expected operation)).1 = .ok (some r) →
      let db := ((empty.run calls).next (.activate generation expected operation)).run later
      db.active = r → db.step (.activate generation expected operation) = (.ok (some r), db)) ∧
    ∀ generation expected operation, expected ≠ (empty.run calls).active →
      (empty.run calls).repeats generation expected operation = false →
      (empty.run calls).step (.activate generation expected operation)
        = (.error (if 2 ^ 63 ≤ expected.epoch + 1 then .overflow else .staleCandidate),
          empty.run calls) := by
  refine ⟨linearHistory (linear_run calls), ?_, ?_, ?_⟩
  · intro generation state later hstate h
    exact stateOf_run hstate h later
  · intro generation expected operation later r hr db hactive
    obtain ⟨hreq, hsize, hevent⟩ := activate_recorded hr
    obtain rfl := Option.some.inj hreq
    have hlinear : Linear db :=
      exec_invariant Linear (fun _ c _ h => linear_next h c) (along_true _ later)
        (linear_next (linear_run calls) _)
    have hrep := repeats_of_event hlinear (activations_run hevent later) hactive
    rw [step_of_repeats hsize hrep, hactive]
  · intro generation expected operation hne hrep
    exact step_of_ne hne hrep

end Polymind.Publication.Authority
