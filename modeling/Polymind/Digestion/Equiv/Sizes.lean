import Polymind.Digestion.Equiv.Acceptance

/-!
# What a planned reducer is charged

`reduce_group` plans the children of a reducer by an allowance for each of them, `check_request`
measures the request that is made of them later.  Both are sums over the members of JSON objects
(`weight_canonical_obj`), so that they are compared member by member.

* `legacy_reducers_fit`: without a managed budget the allowance bounds every request;
* `managed_reducers_fit_iff`: with one it bounds the request against the budget, and against the
  context exactly if the rendered size leaves room for the output.
-/

namespace Polymind.Digestion

open Json Documents

variable {U : Type} {ids : Ids U} {a : ExtractionArtifact U} {profile : DigestionProfile}
  {ref planRef : ObjectRef U} {plan : Plan U}

/-! ### Widths -/

theorem isHexChar_plain {c : Char} (h : isHexChar c = true) : Plain c := by
  simp only [isHexChar, Bool.or_eq_true, Bool.and_eq_true, decide_eq_true_eq] at h
  refine ⟨by omega, by omega, ?_, ?_⟩ <;> rintro rfl <;> revert h <;> decide

theorem uuidStr_all_plain (hw : ids.FixedWidth) (u : U) : ∀ c ∈ ids.uuidStr u, Plain c := by
  intro c hmem
  rcases hw.uuidStr_chars u c hmem with hx | rfl
  · exact isHexChar_plain hx
  · decide

theorem digest_plain {s : Str} (h : isDigest s = true) : s.length = 64 ∧ ∀ c ∈ s, Plain c := by
  simp only [isDigest, Bool.and_eq_true, beq_iff_eq, List.all_eq_true] at h
  exact ⟨h.1, fun c hmem => isHexChar_plain (h.2 c hmem)⟩

/-- The weight of a plain text as a JSON string. -/
theorem weight_str_plain (μ : Char → Nat) {s : Str} (h : ∀ c ∈ s, Plain c) :
    weight μ (canonical (.str s)) = 2 * μ '"' + weight μ s := by
  rw [canonical, dumps, quote_plain h, weight_cons, weight_append, weight_cons, weight_nil]
  omega

theorem length_str_plain {s : Str} (h : ∀ c ∈ s, Plain c) :
    (canonical (.str s)).length = s.length + 2 := by
  rw [← weight_one, weight_str_plain _ h, weight_one]
  omega

theorem length_uuidJson (hw : ids.FixedWidth) (u : U) : (canonical (ids.uuidJson u)).length = 38 := by
  rw [Ids.uuidJson, length_str_plain (uuidStr_all_plain hw u), hw.uuidStr_length]

/-- A natural number below `10 ^ k` is written with at most `k` digits. -/
theorem length_nat_le {n k : Nat} (hk : 0 < k) (h : n < 10 ^ k) : (canonical (.nat n)).length ≤ k :=
  (Nat.length_toDigits_le_iff (by decide) hk).mpr h

/-- A smaller number is not written with more digits. -/
theorem length_nat_mono {m n : Nat} (h : m ≤ n) :
    (canonical (.nat m)).length ≤ (canonical (.nat n)).length := by
  have hpos : 0 < (canonical (.nat n)).length := Nat.length_toDigits_pos
  have hn : n < 10 ^ (canonical (.nat n)).length :=
    (Nat.length_toDigits_le_iff (by decide) hpos).mp (Nat.le_refl _)
  exact length_nat_le hpos (h.trans_lt hn)

theorem nat_plain (n : Nat) : ∀ c ∈ canonical (.nat n), Plain c := by
  intro c hmem
  have hdigit := Nat.isDigit_of_mem_toDigits (by decide) (by decide) hmem
  refine isHexChar_plain ?_
  simp only [Char.isDigit, Bool.and_eq_true, decide_eq_true_eq, UInt32.le_iff_toNat_le] at hdigit
  simp only [isHexChar, Char.toNat, Bool.or_eq_true, Bool.and_eq_true, decide_eq_true_eq]
  exact .inl hdigit

/-- The length of an object whose member names are plain. -/
theorem length_record {fields : List (String × Json)}
    (hkeys : ∀ k ∈ fields.map Prod.fst, ∀ c ∈ k.toList, Plain c) (hne : fields ≠ []) :
    (canonical (.record fields)).length
      = 1 + (fields.map fun f => f.1.toList.length + 4 + (canonical f.2).length).sum := by
  have hlength : ∀ l : List (String × Json), (∀ k ∈ l.map Prod.fst, ∀ c ∈ k.toList, Plain c) →
      (l.map fun f => (quote true f.1.toList).length + 1 + (canonical f.2).length).sum + l.length
        = (l.map fun f => f.1.toList.length + 4 + (canonical f.2).length).sum := by
    intro l hl
    induction l with
    | nil => rfl
    | cons f l ih =>
      have hf : (quote true f.1.toList).length = f.1.toList.length + 2 :=
        length_str_plain (hl f.1 (List.mem_cons_self ..))
      have := ih fun k hk => hl k (List.mem_cons_of_mem _ hk)
      simp only [List.map_cons, List.sum_cons, List.length_cons]
      omega
  have hpos : 0 < fields.length := List.length_pos_of_ne_nil hne
  rw [← weight_one, Json.record, weight_canonical_obj]
  simp only [List.map_map, Function.comp_def, weight_one, List.length_map]
  have := hlength fields hkeys
  omega

/-! ### Requests -/

/-- The length of a reducer's request: that of the empty request `reduce_group` measures, the
children and the commas between them. -/
theorem length_reducerRequest (hw : ids.FixedWidth) (root k : U) (n : ReductionNode U)
    (cs : List (ChildInput U)) :
    ((reducerRequest plan k n cs).encode ids).length
      = ((emptyRequest root plan.profile n.path).encode ids).length
        + (cs.map fun c => (canonical (c.modelDump ids)).length).sum + (cs.length - 1) := by
  have hk := length_uuidJson hw k
  have hroot := length_uuidJson hw root
  have hchildren : (canonical (.arr (cs.map (ChildInput.modelDump ids)))).length
      = 2 + (cs.map fun c => (canonical (c.modelDump ids)).length).sum + (cs.length - 1) := by
    rw [← weight_one, weight_canonical_arr]
    simp only [List.map_map, Function.comp_def, weight_one, List.length_map, Nat.mul_one]
  have hnone : (canonical (.arr [])).length = 2 := rfl
  rw [← weight_one, ← weight_one]
  simp only [StageRequest.encode, StageRequest.modelDump, reducerRequest, emptyRequest, Json.record,
    weight_canonical_obj, List.map_cons, List.map_nil, List.sum_cons, List.sum_nil, weight_one,
    List.length_cons, List.length_nil]
  omega

/-- The counts of an inherited summary. -/
def InheritedSummary.counts (s : InheritedSummary) : List Nat :=
  [s.analyzedPieces, s.failedPieces, s.qualifications, s.contradictions, s.openQuestions]

theorem length_scope (hw : ids.FixedWidth) (s : Scope U) :
    (canonical (s.modelDump ids)).length = 96 := by
  rw [Scope.modelDump,
    length_record (plain_of_all (by simp only [List.map_cons, List.map_nil]; decide)) (by simp)]
  simp only [List.map_cons, List.map_nil, List.sum_cons, List.sum_nil, String.reduceToList,
    List.length_cons, List.length_nil, length_uuidJson hw]
  omega

theorem length_objectRef (hw : ids.FixedWidth) {r : ObjectRef U} (hr : isDigest r.sha256 = true)
    (hsize : r.byteSize < 2 ^ 64) : (canonical (r.modelDump ids)).length ≤ 400 := by
  have hsha : (canonical (.str r.sha256)).length = 66 := by
    rw [length_str_plain (digest_plain hr).2, (digest_plain hr).1]
  have hbytes : (canonical (.nat r.byteSize)).length ≤ 20 :=
    length_nat_le (by decide) (hsize.trans (by decide))
  have hkind : (canonical (.str r.kind.text)).length ≤ 10 := by
    cases r.kind <;> decide
  have hconst : (canonical (.text "sha256")).length = 8 := by decide
  rw [ObjectRef.modelDump,
    length_record (plain_of_all (by simp only [List.map_cons, List.map_nil]; decide)) (by simp)]
  simp only [List.map_cons, List.map_nil, List.sum_cons, List.sum_nil, String.reduceToList,
    List.length_cons, List.length_nil, length_uuidJson hw,
    length_scope hw]
  omega

theorem length_inherited {s : InheritedSummary} (h : ∀ x ∈ s.counts, x < 2 ^ 64) :
    (canonical s.modelDump).length ≤ 280 := by
  have hcount : ∀ x ∈ s.counts, (canonical (.nat x)).length ≤ 20 := fun x hx =>
    length_nat_le (by decide) ((h x hx).trans (by decide))
  simp only [InheritedSummary.counts, List.forall_mem_cons, List.not_mem_nil, false_imp_iff,
    implies_true, and_true] at hcount
  have hconst : (canonical (.text "application-owned-source-lineage")).length = 34 := by decide
  rw [InheritedSummary.modelDump,
    length_record (plain_of_all (by simp only [List.map_cons, List.map_nil]; decide)) (by simp)]
  simp only [List.map_cons, List.map_nil, List.sum_cons, List.sum_nil, String.reduceToList,
    List.length_cons, List.length_nil]
  omega

/-- What surrounds the result of a child in a request is shorter than `CHILD_WRAPPER_BYTES`. -/
theorem length_childInput (hw : ids.FixedWidth) {c : ChildInput U}
    (hdigest : isDigest c.artifact.sha256 = true) (hsize : c.artifact.byteSize < 2 ^ 64)
    (hcounts : ∀ x ∈ c.inherited.counts, x < 2 ^ 64) :
    (canonical (c.modelDump ids)).length < (c.result.encode ids).length + 1024 := by
  have hartifact := length_objectRef hw hdigest hsize
  have hinherited := length_inherited hcounts
  have hconst : (canonical (.text "generated-intermediate")).length = 24 := by decide
  rw [ChildInput.modelDump,
    length_record (plain_of_all (by simp only [List.map_cons, List.map_nil]; decide)) (by simp),
    StageResult.encode]
  simp only [List.map_cons, List.map_nil, List.sum_cons, List.sum_nil, String.reduceToList,
    List.length_cons, List.length_nil]
  omega

/-! ### Without a managed budget -/

theorem legacy_allowance (hlegacy : profile.managedInputBudget = none) (root : U) (path : List Str) :
    allowance ids profile root path = ⟨min profile.maxFanIn
        (((profile.contextTokens : Int) - profile.reservedOutputTokens
          - legacyOverhead ids profile root path) / ((profile.maxResultCharacters + 1024 : Nat) : Int)),
      legacyOverhead ids profile root path, profile.maxResultCharacters + 1024⟩ := by
  unfold allowance
  rw [hlegacy]

/-- Children whose wrappers keep to their allowance fill at most their part of a request. -/
theorem sum_length_children {cs : List (ChildInput U)} {bound : Nat}
    (h : ∀ c ∈ cs, (canonical (c.modelDump ids)).length < bound) :
    (cs.map fun c => (canonical (c.modelDump ids)).length).sum + cs.length ≤ cs.length * bound := by
  induction cs with
  | nil => simp
  | cons c cs ih =>
    have hc := h c (List.mem_cons_self ..)
    have hcs := ih fun d hd => h d (List.mem_cons_of_mem _ hd)
    simp only [List.map_cons, List.sum_cons, List.length_cons, Nat.add_mul, Nat.one_mul]
    omega

/-- A reducer's request is within what `reduce_group` reserved for it. -/
theorem requestSize_le_estimate [DecidableEq U] (hw : ids.FixedWidth)
    {units : List (StructuralUnit U)} {root : U} {n : ReductionNode U}
    (hformed : Formed ids a plan.profile root units n) (bound : Nat) (k : U) {cs : List (ChildInput U)}
    (hlength : cs.length = n.children.length)
    (hcs : ∀ c ∈ cs, (canonical (c.modelDump ids)).length < bound) :
    requestSize ids (reducerRequest plan k n cs)
      ≤ legacyOverhead ids plan.profile root n.path + n.children.length * bound := by
  have hsum := sum_length_children hcs
  have hpos : 0 < n.children.length := List.length_pos_of_ne_nil hformed.nonempty
  rw [requestSize, length_reducerRequest hw root, legacyOverhead, requestSize]
  rw [hlength] at hsum ⊢
  simp only [emptyRequest, reducerRequest]
  omega

/-- **Planned reducers fit without a managed budget.**  Whatever results of at most
`max_result_characters` its children have, the request of a planned reducer passes `check_request`,
and is charged at most what the plan estimates. -/
theorem legacy_reducers_fit [DecidableEq U] (hw : ids.FixedWidth)
    (h : buildPlan ids a profile ref = .ok plan) (hlegacy : profile.managedInputBudget = none) :
    ∀ n ∈ plan.reducers, ∀ cs : List (ChildInput U), cs.length = n.children.length →
      (∀ c ∈ cs, c.artifact.valid ids = true ∧ c.artifact.byteSize < 2 ^ 64
        ∧ (c.result.encode ids).length ≤ profile.maxResultCharacters
        ∧ ∀ x ∈ c.inherited.counts, x < 2 ^ 64) →
      ∃ size, checkRequest ids (reducerRequest plan n.stageId n cs) = .ok size
        ∧ size ≤ n.estimatedTokens := by
  intro n hn cs hlength hcs
  have hplan := buildPlan_ok h
  obtain ⟨root, hformed⟩ := hplan.formed
  have hform := hformed n hn
  have hfits := hform.fits
  have hestimate := hform.estimate
  rw [legacy_allowance hlegacy] at hfits hestimate
  obtain rfl := hplan.profile_eq
  have hsize := requestSize_le_estimate hw hform (plan.profile.maxResultCharacters + 1024) n.stageId
    hlength fun c hc => by
      obtain ⟨hvalid, hbytes, hresult, hcounts⟩ := hcs c hc
      have hdigest : isDigest c.artifact.sha256 = true := (Bool.and_eq_true _ _ ▸ hvalid).1
      exact (length_childInput hw hdigest hbytes hcounts).trans_le (Nat.add_le_add_right hresult 1024)
  -- the capacity is what is left of the context over the allowance for a child
  have hroom : (n.children.length : Int) * ((plan.profile.maxResultCharacters + 1024 : Nat) : Int)
      ≤ (plan.profile.contextTokens : Int) - plan.profile.reservedOutputTokens
        - legacyOverhead ids plan.profile root n.path :=
    Int.mul_le_of_le_ediv (by omega) (hfits.trans (Int.min_le_right _ _))
  rw [← Int.natCast_mul] at hroom
  refine ⟨requestSize ids (reducerRequest plan n.stageId n cs), ?_, ?_⟩
  · unfold checkRequest chargedSize
    rw [show (reducerRequest plan n.stageId n cs).profile = plan.profile from rfl, hlegacy]
    refine if_neg ?_
    omega
  · rw [hestimate]
    exact hsize

/-- The theorem applies to the sample: a reducer over a chunk that was not available. -/
theorem legacy_reducers_fit_sample : ∃ size, checkRequest (sampleIds wrap legacyProfile)
    (reducerRequest (legacyPlan wrap) 9 (sampleReducer wrap legacyProfile 9 6 8 1)
      [⟨stored (sampleIds wrap legacyProfile) sampleScope .null, chunkResult, ⟨1, 0, 0, 0, 0⟩⟩])
      = .ok size
    ∧ size ≤ (sampleReducer wrap legacyProfile 9 6 8 1).estimatedTokens := by
  have hw := sample_fixedWidth legacyProfile
  refine legacy_reducers_fit hw (buildPlan_legacy smallCut_wrap) rfl
    (sampleReducer wrap legacyProfile 9 6 8 1) (List.mem_cons_self ..) _ rfl fun c hc => ?_
  obtain rfl := List.mem_singleton.mp hc
  have hbulk : bulk (chunkResult.modelDump (sampleIds wrap legacyProfile)) ≤ 20000 :=
    bulk_chunkResult (sample_width smallCut_wrap)
  have hlength := length_canonical_le_bulk (chunkResult.modelDump (sampleIds wrap legacyProfile))
  refine ⟨stored_valid hw, show (4 : Nat) < 2 ^ 64 by decide, ?_, by decide⟩
  show (canonical (chunkResult.modelDump (sampleIds wrap legacyProfile))).length ≤ 100000
  omega

/-! ### With a managed budget -/

theorem escapedSize_eq (value : Json) : escapedSize value = weight escapedLength (canonical value) := by
  rw [escapedSize, canonical, dumps, length_quote, Nat.add_sub_cancel]

theorem length_le_escapedSize (value : Json) : (canonical value).length ≤ escapedSize value := by
  rw [escapedSize_eq]
  exact length_le_weight_escapedLength _

/-- The escaped size of plain text in quotes: each quote is escaped. -/
theorem escapedSize_str_plain {s : Str} (h : ∀ c ∈ s, Plain c) : escapedSize (.str s) = s.length + 4 := by
  have hquote : escapedLength '"' = 2 := by decide
  rw [escapedSize_eq, weight_str_plain _ h, weight_escapedLength_plain h, hquote]
  omega

theorem escapedSize_uuidJson (hw : ids.FixedWidth) (u : U) : escapedSize (ids.uuidJson u) = 40 := by
  rw [Ids.uuidJson, escapedSize_str_plain (uuidStr_all_plain hw u), hw.uuidStr_length]

theorem escapedSize_nat (n : Nat) : escapedSize (.nat n) = (canonical (.nat n)).length := by
  rw [escapedSize_eq, weight_escapedLength_plain (nat_plain n)]

/-- References of one scope and kind differ in size by their `byte_size` only. -/
theorem escapedSize_objectRef_le (hw : ids.FixedWidth) {r t : ObjectRef U} (hscope : r.scope = t.scope)
    (hkind : r.kind = t.kind) (hr : isDigest r.sha256 = true) (ht : isDigest t.sha256 = true)
    (hsize : r.byteSize ≤ t.byteSize) :
    escapedSize (r.modelDump ids) ≤ escapedSize (t.modelDump ids) := by
  have hobject := escapedSize_uuidJson hw
  have hdigest : ∀ s : Str, isDigest s = true → escapedSize (.str s) = 68 := by
    intro s hs
    rw [escapedSize_str_plain (digest_plain hs).2, (digest_plain hs).1]
  have hr := hdigest _ hr
  have ht := hdigest _ ht
  have hbytes := length_nat_mono hsize
  rw [← escapedSize_nat, ← escapedSize_nat] at hbytes
  simp only [ObjectRef.modelDump, Json.record, escapedSize_eq, weight_canonical_obj, List.map_cons,
    List.map_nil, List.sum_cons, List.sum_nil, List.length_cons, List.length_nil, hscope, hkind]
    at hobject hr ht hbytes ⊢
  rw [hobject, hobject, hobject, hobject]
  omega

/-- A child contributes no more with a smaller reference. -/
theorem childContribution_mono {r t : ObjectRef U} {result : StageResult U}
    {inherited : InheritedSummary} (h : escapedSize (r.modelDump ids) ≤ escapedSize (t.modelDump ids)) :
    childContribution ids ⟨r, result, inherited⟩ ≤ childContribution ids ⟨t, result, inherited⟩ := by
  have hchild : escapedSize ((⟨r, result, inherited⟩ : ChildInput U).modelDump ids)
      ≤ escapedSize ((⟨t, result, inherited⟩ : ChildInput U).modelDump ids) := by
    simp only [ChildInput.modelDump, Json.record, escapedSize_eq, weight_canonical_obj, List.map_cons,
      List.map_nil, List.sum_cons, List.sum_nil, List.length_cons, List.length_nil] at h ⊢
    omega
  unfold childContribution
  dsimp only
  omega

/-- A child contributes more than it takes in the request itself. -/
theorem length_lt_childContribution (c : ChildInput U) :
    (canonical (c.modelDump ids)).length < childContribution ids c := by
  have hlength := length_le_escapedSize (c.modelDump ids)
  unfold childContribution resultContribution
  dsimp only
  omega

/-- What `put` returns. -/
theorem put_ok (hw : ids.FixedWidth) {scope : Scope U} {dump : Json} {limit : Nat} {r : ObjectRef U}
    (h : put ids scope dump limit = .ok r) :
    r.scope = scope ∧ r.kind = .artifact ∧ isDigest r.sha256 = true ∧ r.byteSize ≤ limit := by
  unfold put at h
  dsimp only at h
  split at h
  · cases h
  · rename_i hfits
    rw [← Except.ok.inj h]
    exact ⟨rfl, rfl, hw.sha256_digest _, Nat.le_of_not_lt hfits⟩

section

variable [DecidableEq U] {parse : Parser U} {o : Outcomes U} {budget : ManagedInputBudget}

/-- What a performed stage contributes to the reducer above it, with the reference `put` returned. -/
theorem Performed.contribution (hw : ids.FixedWidth) (hkind : planRef.kind = .artifact)
    (hdigest : isDigest planRef.sha256 = true) (hbudget : plan.profile.managedInputBudget = some budget)
    {k : U} (h : Performed ids parse a plan planRef o k) :
    childContribution ids (o.child k) ≤ budget.childBytes := by
  obtain ⟨raw, h⟩ := h
  obtain ⟨request, result, children, -, -, -, hcp, hcontribution, hput⟩ := performStage_ok h
  obtain ⟨hscope, hkind', hdigest', hsize⟩ := put_ok hw hput
  have hresult : (o.checkpoint k).result = result := by rw [hcp]; rfl
  unfold checkContribution at hcontribution
  rw [hbudget] at hcontribution
  dsimp only at hcontribution
  rw [ite_error_eq_ok, ← hresult] at hcontribution
  refine (childContribution_mono ?_).trans (Nat.le_of_not_lt hcontribution.1)
  exact escapedSize_objectRef_le hw hscope (hkind'.trans hkind.symm) hdigest' hdigest hsize

omit [DecidableEq U] in
theorem managed_allowance (hbudget : profile.managedInputBudget = some budget) (root : U)
    (path : List Str) :
    (allowance ids profile root path).capacity = min (min (profile.maxFanIn : Int)
        (((profile.contextTokens : Int) - profile.reservedOutputTokens
          - legacyOverhead ids profile root path) / (budget.childBytes : Int)))
      (((budget.inputBytes : Int) - reductionSize budget path 0) / (budget.childBytes : Int)) := by
  unfold allowance
  rw [hbudget]

omit [DecidableEq U] in
theorem reductionSize_eq (budget : ManagedInputBudget) (path : List Str) (n : Nat) :
    reductionSize budget path n = reductionSize budget path 0 + n * budget.childBytes := by
  simp [reductionSize]

theorem childBytes_pos (hvalid : profile.valid = true)
    (hbudget : profile.managedInputBudget = some budget) : 0 < budget.childBytes := by
  simp only [DigestionProfile.valid, hbudget, Option.all_some, ManagedInputBudget.valid,
    Bool.and_eq_true, decide_eq_true_eq] at hvalid
  omega

/-- **When planned reducers fit in managed mode.**  The children of a reducer having been accepted
and written by the handler, its request passes `check_request` exactly if the base, the path and the
children's allowances leave room for the output in the context. -/
theorem managed_reducers_fit_iff (hw : ids.FixedWidth)
    (h : prepare ids a ref profile = .ok (plan, planRef))
    (hbudget : profile.managedInputBudget = some budget) :
    ∀ n ∈ plan.reducers, (∀ k ∈ n.children, Performed ids parse a plan planRef o k) →
      ((∃ size, checkRequest ids (o.request plan n) = .ok size) ↔
        budget.baseBytes + escapedSize (.arr (n.path.map .str)) - escapedSize (.arr [])
            + n.children.length * budget.childBytes + profile.reservedOutputTokens
          ≤ profile.contextTokens) := by
  intro n hn hchildren
  obtain ⟨hbuild, hput⟩ := prepare_ok h
  have hplan := buildPlan_ok hbuild
  obtain ⟨-, hkind, hdigest, -⟩ := put_ok hw hput
  obtain ⟨root, hformed⟩ := hplan.formed
  have hform := hformed n hn
  have hfits := hform.fits
  have hpos := childBytes_pos hplan.profileValid hbudget
  rw [managed_allowance hbudget] at hfits
  obtain rfl := hplan.profile_eq
  have hcontributes : ∀ c ∈ n.children.map o.child, childContribution ids c ≤ budget.childBytes := by
    intro c hc
    obtain ⟨k, hk, rfl⟩ := List.mem_map.mp hc
    exact (hchildren k hk).contribution hw hkind hdigest hbudget
  have hsize := requestSize_le_estimate hw hform budget.childBytes n.stageId
    (List.length_map o.child) fun c hc => (length_lt_childContribution c).trans_le (hcontributes c hc)
  -- the two capacities: of the context with the plain overhead, of the budget with the rendered one
  have hraw : (n.children.length : Int) * (budget.childBytes : Int)
      ≤ (plan.profile.contextTokens : Int) - plan.profile.reservedOutputTokens
        - legacyOverhead ids plan.profile root n.path :=
    Int.mul_le_of_le_ediv (by omega) ((hfits.trans (Int.min_le_left _ _)).trans (Int.min_le_right _ _))
  have hrendered : (n.children.length : Int) * (budget.childBytes : Int)
      ≤ (budget.inputBytes : Int) - reductionSize budget n.path 0 :=
    Int.mul_le_of_le_ediv (by omega) (hfits.trans (Int.min_le_right _ _))
  rw [← Int.natCast_mul] at hraw hrendered
  have hsplit := reductionSize_eq budget n.path n.children.length
  have hcharged : chargedSize ids (o.request plan n) = .ok (max (requestSize ids (o.request plan n))
      (reductionSize budget n.path n.children.length)) := by
    have hsmall : (o.request plan n).children.any
        (fun c => decide (budget.childBytes < childContribution ids c)) = false := by
      rw [List.any_eq_false]
      intro c hc
      rw [decide_eq_true_eq]
      exact Nat.not_lt.mpr (hcontributes c hc)
    have hrender : renderedSize ids budget (o.request plan n)
        = reductionSize budget n.path n.children.length :=
      congrArg (reductionSize budget n.path) (List.length_map o.child)
    unfold chargedSize
    rw [show (o.request plan n).profile = plan.profile from rfl, hbudget]
    dsimp only
    rw [hsmall, hrender, Bool.false_or, if_neg]
    rw [decide_eq_true_eq]
    omega
  have hrequest : requestSize ids (o.request plan n)
      ≤ legacyOverhead ids plan.profile root n.path + n.children.length * budget.childBytes := hsize
  have hfit : (∃ size, checkRequest ids (o.request plan n) = .ok size)
      ↔ max (requestSize ids (o.request plan n)) (reductionSize budget n.path n.children.length)
        + plan.profile.reservedOutputTokens ≤ plan.profile.contextTokens := by
    unfold checkRequest
    rw [hcharged]
    simp only [bind_eq_ok, Except.ok.injEq, exists_eq_left', ite_error_eq_ok, exists_and_left,
      exists_eq', and_true, Nat.not_lt]
    rfl
  rw [hfit]
  unfold reductionSize at hsplit ⊢
  omega

end

/-- The theorem applies to the sample's reducer over its chunk. -/
theorem managed_reducers_fit_iff_sample :
    (∃ size, checkRequest (sampleIds wrap managedProfile)
      ((sampleOutcomes wrap managedProfile (managedEstimate wrap)).request
        (samplePlan wrap managedProfile (managedEstimate wrap))
        (sampleReducer wrap managedProfile 9 6 8 1)) = .ok size)
      ↔ 10 ^ 6 + escapedSize (.arr []) - escapedSize (.arr []) + 1 * 10 ^ 7 + 1000
        ≤ managedProfile.contextTokens := by
  have hw := sample_fixedWidth managedProfile
  have hchildren : ∀ k ∈ (sampleReducer wrap managedProfile 9 6 8 1).children,
      Performed (sampleIds wrap managedProfile) (sampleParser (sampleIds wrap managedProfile))
        sampleArtifact (samplePlan wrap managedProfile (managedEstimate wrap))
        (samplePlanRef wrap managedProfile (managedEstimate wrap))
        (sampleOutcomes wrap managedProfile (managedEstimate wrap)) k := by
    intro k hk
    obtain rfl := List.mem_singleton.mp hk
    exact managed_performed smallCut_wrap hw
  exact managed_reducers_fit_iff hw (prepare_managed smallCut_wrap) rfl
    (sampleReducer wrap managedProfile 9 6 8 1) (List.mem_cons_self ..) hchildren

/-- Under the sample's budget a reducer over one child is charged more than the context. -/
theorem managed_reduction_error {ids : Ids Nat} {request : StageRequest Nat}
    (hprofile : request.profile = managedProfile) (hstage : request.stage = .reduction)
    (hchildren : request.children.length = 1) (hpath : request.structuralPath = []) :
    checkRequest ids request = .error limitExceeded := by
  have hrendered : renderedSize ids ⟨10 ^ 9, 10 ^ 6, 10 ^ 7⟩ request = 10 ^ 6 + 10 ^ 7 := by
    unfold renderedSize
    rw [hstage, hchildren, hpath]
    unfold reductionSize
    rw [List.map_nil, Nat.add_sub_cancel, Nat.one_mul]
  have hcontext : managedProfile.contextTokens = 1000 + 10 ^ 7 + 5 * 10 ^ 5 := rfl
  have hreserved : managedProfile.reservedOutputTokens = 1000 := rfl
  unfold checkRequest chargedSize
  rw [hprofile, show managedProfile.managedInputBudget = some ⟨10 ^ 9, 10 ^ 6, 10 ^ 7⟩ from rfl,
    hcontext, hreserved]
  dsimp only
  rw [hrendered]
  split_ifs with hover
  · rfl
  · dsimp only [bind, Except.bind]
    rw [if_pos]
    omega

/-- The sample's reducer over its chunk does not fit: the context was found large enough for the
request, and not for the rendered size that `check_request` charges as well. -/
theorem managed_reducers_fit_fails :
    prepare (sampleIds wrap managedProfile) sampleArtifact (sampleRef wrap managedProfile) managedProfile
      = .ok (samplePlan wrap managedProfile (managedEstimate wrap),
          samplePlanRef wrap managedProfile (managedEstimate wrap))
    ∧ sampleReducer wrap managedProfile 9 6 8 1
      ∈ (samplePlan wrap managedProfile (managedEstimate wrap)).reducers
    ∧ (∀ k ∈ (sampleReducer wrap managedProfile 9 6 8 1).children,
      Performed (sampleIds wrap managedProfile) (sampleParser (sampleIds wrap managedProfile))
        sampleArtifact (samplePlan wrap managedProfile (managedEstimate wrap))
        (samplePlanRef wrap managedProfile (managedEstimate wrap))
        (sampleOutcomes wrap managedProfile (managedEstimate wrap)) k)
    ∧ checkRequest (sampleIds wrap managedProfile)
      ((sampleOutcomes wrap managedProfile (managedEstimate wrap)).request
        (samplePlan wrap managedProfile (managedEstimate wrap))
        (sampleReducer wrap managedProfile 9 6 8 1)) = .error limitExceeded := by
  refine ⟨prepare_managed smallCut_wrap, List.mem_cons_self .., fun k hk => ?_, ?_⟩
  · obtain rfl := List.mem_singleton.mp hk
    exact managed_performed smallCut_wrap (sample_fixedWidth managedProfile)
  · exact managed_reduction_error rfl rfl rfl rfl

end Polymind.Digestion
