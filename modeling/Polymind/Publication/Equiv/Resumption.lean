import Polymind.Publication.Equiv.Service
import Polymind.Publication.Equiv.Identity

/-!
# What is published is intact, and what was interrupted can be finished

In every reachable state the rows of a generation that is ready or accepted are exactly the records of its
manifest (`publication_intact`).

A preparation that crashed, failed or was abandoned leaves some rows behind, and a candidate that is
preparing or failed.  From any reachable state, as long as nothing else was activated and the jobs still
answer what the candidate was planned from, running `prepare` and `activate` once more publishes it.

* `returns_validate`: a generation with all its rows is valid;
* `returns_writeAll`: the loop writes the rows that are missing, and none changes;
* `returns_plan`, `returns_prepare`, `returns_activate`: the methods, when nothing raises.
-/

namespace Polymind.Publication.Service

open Json Documents Digestion Planning Process

variable {U : Type} [DecidableEq U] {ids : Ids U} {encoder : RetrievalEncoder} {scope : Scope U}
  {w w' : World U} {m n : Planning.PublicationManifest U} {library : Library U}

/-! ### Effects that succeed -/

/-- No effect raises, and the jobs are those of a library. -/
def undisturbed (ids : Ids U) (scope : Scope U) (library : Library U) :
    (e : Effect U) → World U → Except Fault e.Answer → World U → Prop
  | .accepted jobId, w, r, w' => w' = w ∧ ∃ a, accepted ids library scope jobId = .ok a ∧ r = .ok a
  | e, w, r, w' => answers ids scope e w r w' ∧ ∃ a, r = .ok a

theorem undisturbed_answers {e : Effect U} {r : Except Fault e.Answer}
    (h : undisturbed ids scope library e w r w') : answers ids scope e w r w' := by
  cases e with
  | accepted jobId => exact h.1
  | _ => exact h.1

/-- An effect that only answers. -/
theorem returns_nothing {e : Effect U} (a : e.Answer)
    (h : ∀ r w', undisturbed ids scope library e w r w' ↔ w' = w ∧ ∃ a, r = .ok a) :
    Returns (undisturbed ids scope library) (fun _ w' => w' = w) (perform e) w := by
  refine Returns.perform ⟨.ok a, w, (h _ _).mpr ⟨rfl, a, rfl⟩⟩ fun r w' hr => ?_
  obtain ⟨hw, a, rfl⟩ := (h r w').mp hr
  exact ⟨a, rfl, hw⟩

theorem returns_manage : Returns (undisturbed ids scope library) (fun _ w' => w' = w) manage w :=
  returns_nothing (e := .manage) () fun _ _ => Iff.rfl

theorem returns_checkpoint (point : String) :
    Returns (undisturbed ids scope library) (fun _ w' => w' = w) (checkpoint point) w :=
  returns_nothing (e := .checkpoint point) () fun _ _ => Iff.rfl

theorem returns_active : Returns (undisturbed ids scope library)
    (fun a w' => a = w.authority.active ∧ w' = w) active w := by
  refine Returns.perform ⟨.ok w.authority.active, w, ⟨rfl, fun a h => (Except.ok.inj h).symm⟩, _, rfl⟩ ?_
  rintro r w' ⟨⟨hw, h⟩, a, rfl⟩
  exact ⟨a, rfl, h a rfl, hw⟩

theorem returns_known : Returns (undisturbed ids scope library)
    (fun a w' => a = w.authority.candidates.map (fun row => (row.generation, row.state)) ∧ w' = w) known w := by
  refine Returns.perform ⟨.ok _, w, ⟨rfl, fun a h => (Except.ok.inj h).symm⟩, _, rfl⟩ ?_
  rintro r w' ⟨⟨hw, h⟩, a, rfl⟩
  exact ⟨a, rfl, h a rfl, hw⟩

theorem returns_candidate {generation : U} {row : CandidateRow U}
    (hrow : w.authority.candidate? generation = some row) : Returns (undisturbed ids scope library)
      (fun a w' => a = (row.manifest, row.state, row.base) ∧ w' = w) (candidate generation) w := by
  refine Returns.perform ⟨.ok (row.manifest, row.state, row.base), w,
    ⟨rfl, fun a h => ⟨row, hrow, (Except.ok.inj h).symm⟩⟩, _, rfl⟩ ?_
  rintro r w' ⟨⟨hw, h⟩, a, rfl⟩
  obtain ⟨row', hrow', ha⟩ := h a rfl
  obtain rfl := Option.some.inj (hrow.symm.trans hrow')
  exact ⟨a, rfl, ha, hw⟩

theorem returns_readManifest {ref : ObjectRef U} (h : w.objects.get? ref.key = some (ref, m)) :
    Returns (undisturbed ids scope library) (fun a w' => a = m ∧ w' = w) (readManifest ref) w := by
  refine Returns.perform ⟨.ok m, w, ⟨rfl, fun a ha => Except.ok.inj ha ▸ h⟩, _, rfl⟩ ?_
  rintro r w' ⟨⟨hw, hread⟩, a, rfl⟩
  have ha := hread a rfl
  rw [h] at ha
  exact ⟨a, rfl, (Prod.mk.inj (Option.some.inj ha)).2.symm, hw⟩

theorem returns_listDocuments (filter : Option VectorFilter) : Returns (undisturbed ids scope library)
    (fun rows w' => rows.Perm ((w.vectors.map Prod.snd).filter (VectorDocument.matches filter)) ∧ w' = w)
    (listDocuments filter) w := by
  refine Returns.perform ⟨.ok ((w.vectors.map Prod.snd).filter (VectorDocument.matches filter)), w,
    ⟨rfl, fun rows h => Except.ok.inj h ▸ .refl _⟩, _, rfl⟩ ?_
  rintro r w' ⟨⟨hw, h⟩, rows, rfl⟩
  exact ⟨rows, rfl, h rows rfl, hw⟩

theorem returns_upsert (id : Str) (row : VectorDocument) : Returns (undisturbed ids scope library)
    (fun _ w' => w' = { w with vectors := w.vectors.set id row }) (upsert id row) w := by
  refine Returns.perform ⟨.ok (), _, .inl rfl, (), rfl⟩ ?_
  rintro r w' ⟨h | ⟨-, e, he⟩, a, rfl⟩
  · exact ⟨a, rfl, h⟩
  · cases he

/-- A job of the library. -/
theorem returns_acceptedJob {jobId : U} {a : Accepted U} (h : accepted ids library scope jobId = .ok a) :
    Returns (undisturbed ids scope library) (fun b w' => b = a ∧ w' = w) (acceptedJob jobId) w := by
  refine Returns.perform ⟨.ok a, w, rfl, a, h, rfl⟩ ?_
  rintro r w' ⟨hw, b, hb, rfl⟩
  exact ⟨b, rfl, Except.ok.inj (hb.symm.trans h), hw⟩

/-! ### Listings that match -/

section

variable {K V : Type} [DecidableEq K] {same : V → V → Bool} {d e : Dict K V}

/-- The order of the items does not matter. -/
theorem sameDict_of_perm (hkeys : (e.map Prod.fst).Nodup) (hsame : ∀ p ∈ d, same p.2 p.2 = true)
    (h : d.Perm e) : sameDict same d e = true := by
  simp only [sameDict, Bool.and_eq_true, beq_iff_eq, List.all_eq_true]
  refine ⟨h.length_eq, fun p hp => ?_⟩
  rw [Dict.get?_of_mem hkeys (h.mem_iff.mp hp)]
  exact hsame p hp

end

omit [DecidableEq U] in
theorem vectorRow_same (m : Planning.PublicationManifest U) (r : Planning.RetrievalRecord U) :
    (vectorRow ids m r).same (vectorRow ids m r) = true := by
  rw [VectorDocument.same, Bool.and_eq_true, beq_iff_eq]
  have hkeys : ((vectorRow ids m r).metadata.map Prod.fst).Nodup := by
    show (["generation".toList, "record_id".toList, "document_id".toList, "version".toList, "material".toList,
      "classification".toList, "profile".toList, "source".toList, "chunk_id".toList] : List Str).Nodup
    decide
  exact ⟨rfl, sameDict_of_perm hkeys (fun p _ => beq_self_eq_true p.2) (.refl _)⟩

/-- A listing of the rows of all records matches. -/
theorem inventoryMatches_of_perm (hc : ids.CollisionFree) (hvalid : m.valid ids = true)
    {rows : List VectorDocument} (h : rows.Perm (m.records.map (vectorRow ids m))) :
    inventoryMatches ids m m.records rows = true := by
  have hitems : (rows.map fun row => (row.metadata.get? "record_id".toList, row)).Perm
      (m.records.map fun r => (some (Scalar.str (ids.uuidStr r.recordId)), vectorRow ids m r)) := by
    refine (h.map _).trans (List.Perm.of_eq ?_)
    rw [List.map_map]
    rfl
  have hkeys : ((m.records.map fun r => (some (Scalar.str (ids.uuidStr r.recordId)),
      vectorRow ids m r)).map Prod.fst).Nodup := by
    rw [List.map_map]
    refine List.Nodup.map_on (fun r hr s hs heq => records_inj hvalid hr hs ?_) (recordIds_nodup hvalid).of_map
    exact hc.uuidStr_injective (Scalar.str.inj (Option.some.inj heq))
  rw [inventoryMatches, actual, wanted, Dict.ofList_eq_self hkeys,
    Dict.ofList_eq_self ((hitems.map Prod.fst).nodup_iff.mpr hkeys), Bool.and_eq_true, beq_iff_eq]
  refine ⟨by rw [h.length_eq, List.length_map, List.length_map], sameDict_of_perm hkeys ?_ hitems⟩
  intro p hp
  obtain ⟨row, hrow, rfl⟩ := List.mem_map.mp hp
  obtain ⟨r, -, rfl⟩ := List.mem_map.mp (h.mem_iff.mp hrow)
  exact vectorRow_same m r

/-- Records in another order are the same by their ids. -/
theorem byRecordId_of_perm (hvalid : m.valid ids = true) {records : List (Planning.RetrievalRecord U)}
    (h : records.Perm m.records) :
    sameDict (· == ·) (byRecordId records) (byRecordId m.records) = true := by
  have hkeys : ((m.records.map fun r => (r.recordId, r)).map Prod.fst).Nodup := by
    rw [List.map_map]
    exact recordIds_nodup hvalid
  rw [byRecordId, byRecordId, Dict.ofList_eq_self hkeys,
    Dict.ofList_eq_self (((h.map _).map Prod.fst).nodup_iff.mpr hkeys)]
  exact sameDict_of_perm hkeys (fun p _ => beq_self_eq_true p.2) (h.map _)

/-! ### What was planned -/

/-- The records of a job of the library, if there are any. -/
def rowsOf (ids : Ids U) (encoder : RetrievalEncoder) (library : Library U) (scope : Scope U) (jobId : U) :
    List (Planning.RetrievalRecord U) :=
  match accepted ids library scope jobId with
  | .ok a => (content a).rows ids encoder
  | .error _ => []

/-- The jobs of the documents of a manifest still answer what its records were made from. -/
structure Accounted (ids : Ids U) (encoder : RetrievalEncoder) (library : Library U) (scope : Scope U)
    (m : Planning.PublicationManifest U) : Prop where
  inScope : m.scope = scope
  profile : m.profile = encoder.profile
  documents : ∀ d ∈ m.documents, ∃ a, accepted ids library scope d.jobId = .ok a ∧ a.document = d
    ∧ Planning.records ids d.toAcceptedDocument a.artifact a.plan encoder a.digest
      = .ok (rowsOf ids encoder library scope d.jobId)
  records : (m.documents.flatMap fun d => rowsOf ids encoder library scope d.jobId).Perm m.records

theorem accepted_jobId {jobId : U} {a : Accepted U} (h : accepted ids library scope jobId = .ok a) :
    a.document.jobId = jobId := by
  unfold accepted accept at h
  split at h
  · next haccept =>
    obtain rfl := Except.ok.inj h
    simp only [Option.bind_eq_bind, Option.bind_eq_some_iff] at haccept
    obtain ⟨job, -, h⟩ := haccept
    split_ifs at h
    simp only [Option.bind_eq_some_iff] at h
    obtain ⟨⟨digest, ref, coverageRef⟩, -, h⟩ := h
    dsimp only at h
    split_ifs at h
    simp only [Option.bind_eq_some_iff] at h
    obtain ⟨plan, -, rebuilt, -, coverage, -, h⟩ := h
    split_ifs at h
    simp only [Option.bind_eq_some_iff] at h
    obtain ⟨artifact, -, -, -, h⟩ := h
    obtain rfl := Option.some.inj h
    rfl
  · cases h

theorem planJob_ok {jobId : U} {p : Planning.AcceptedDocument U × List (Planning.RetrievalRecord U)}
    (h : planJob ids library scope encoder jobId = .ok p) :
    ∃ a, accepted ids library scope jobId = .ok a ∧ a.document = p.1 ∧ p.1.jobId = jobId
      ∧ Planning.records ids p.1.toAcceptedDocument a.artifact a.plan encoder a.digest = .ok p.2
      ∧ p.2 = rowsOf ids encoder library scope jobId := by
  unfold planJob at h
  obtain ⟨a, ha, h⟩ := bind_eq_ok.mp h
  obtain ⟨rows, hrows, h⟩ := bind_eq_ok.mp h
  obtain rfl := Except.ok.inj h
  refine ⟨a, ha, rfl, accepted_jobId ha, hrows, ?_⟩
  have hcontent : (content a).records ids encoder = .ok rows := hrows
  rw [rowsOf, ha]
  show rows = (content a).rows ids encoder
  rw [Content.rows, hcontent]

/-- What was planned from a library is accounted for, as long as the library answers the same. -/
theorem accounted_of_plan {jobIds : List U} {base : ActivePublication U}
    {previous : Option (Planning.PublicationManifest U)}
    (h : planPublication ids library scope jobIds base encoder previous = .ok m) :
    Accounted ids encoder library scope m := by
  unfold planPublication at h
  obtain ⟨planned, hplanned, h⟩ := bind_eq_ok.mp h
  have hjobs := mapM_eq_ok.mp hplanned
  have hjob : ∀ p ∈ planned, ∃ jobId, planJob ids library scope encoder jobId = .ok p := by
    intro p hp
    obtain ⟨jobId, -, hjobId⟩ := mem_of_forall₂ hjobs hp
    exact ⟨jobId, hjobId⟩
  unfold manifestValues at h
  dsimp only at h
  split at h
  · obtain rfl := Except.ok.inj h
    refine ⟨rfl, rfl, ?_, ?_⟩
    · intro d hd
      have hd := (List.mem_insertionSort _).mp hd
      obtain ⟨p, hp, rfl⟩ := List.mem_map.mp hd
      obtain ⟨jobId, hjobId⟩ := hjob p hp
      obtain ⟨a, ha, hdocument, rfl, hrecords, hrows⟩ := planJob_ok hjobId
      exact ⟨a, ha, hdocument, by rw [← hrows]; exact hrecords⟩
    · refine (List.Perm.flatMap_right _ (List.perm_insertionSort _ _)).trans
        (.trans (List.Perm.of_eq ?_) (List.perm_insertionSort _ _).symm)
      rw [List.flatMap_map]
      refine List.flatMap_congr fun p hp => ?_
      obtain ⟨jobId, hjobId⟩ := hjob p hp
      obtain ⟨a, -, -, rfl, -, hrows⟩ := planJob_ok hjobId
      exact hrows.symm
  · cases h

/-! ### The methods -/

theorem returns_manifest (hw : Sound ids scope w) (hm : Registered w m) (hscope : m.scope = scope)
    {compatible : Bool} (hprofile : compatible = true → m.profile = encoder.profile) :
    Returns (undisturbed ids scope library) (fun a w' => a = m ∧ w' = w)
      (manifest encoder scope m.generation compatible) w := by
  obtain ⟨row, hrow, hobject⟩ := hm
  refine Returns.handle (Returns.bind (returns_candidate hrow) ?_)
  rintro _ w' ⟨rfl, rfl⟩
  refine Returns.bind (returns_readManifest hobject) ?_
  rintro m w'' ⟨rfl, rfl⟩
  rw [if_neg]
  · exact ⟨rfl, rfl⟩
  · have hbase := hw.base m row ⟨row, hrow, hobject⟩ hrow
    intro hcheck
    simp only [hbase, hscope, ne_eq, not_true_eq_false, decide_false, Bool.or_self, Bool.false_or,
      Bool.and_eq_true, decide_eq_true_eq] at hcheck
    exact hcheck.2 (hprofile hcheck.1)

theorem returns_expectedRecords {d : Planning.AcceptedDocument U} (hm : Accounted ids encoder library scope m)
    (hd : d ∈ m.documents) : Returns (undisturbed ids scope library)
      (fun b w' => b = rowsOf ids encoder library scope d.jobId ∧ w' = w) (expectedRecords ids encoder d) w := by
  obtain ⟨a, ha, hdocument, hrecords⟩ := hm.documents d hd
  refine Returns.bind (returns_acceptedJob ha) ?_
  rintro _ w' ⟨rfl, rfl⟩
  rw [if_neg (not_not.mpr hdocument), hrecords]
  exact ⟨rfl, rfl⟩

/-- A generation with all its rows is valid. -/
theorem returns_validate (hc : ids.CollisionFree) (hw : Sound ids scope w) (hm : Registered w m)
    (hpresent : Present ids w m) (haccounted : Accounted ids encoder library scope m) (sparse : Bool) :
    Returns (undisturbed ids scope library) (fun a w' => a = m ∧ w' = w)
      (validate ids encoder scope m.generation sparse none none) w := by
  have hvalid := hw.valid hm
  refine Returns.handle (Returns.bind (returns_manifest hw hm haccounted.inScope fun _ => haccounted.profile) ?_)
  rintro m w₁ ⟨rfl, rfl⟩
  rw [if_neg (by simp [haccounted.inScope])]
  dsimp only
  have hall : m.documents.map (fun d => d.documentId) |>.all
      (m.documents.map fun d => d.documentId).contains := by
    rw [List.all_eq_true]
    exact fun u hu => List.contains_iff_mem.mpr hu
  rw [Option.getD_none, hall, if_neg (by simp)]
  -- all documents are selected, and so are all records
  have hdocuments : m.documents.filter
      (fun d => (m.documents.map fun d => d.documentId).contains d.documentId) = m.documents := by
    refine List.filter_eq_self.mpr fun d hd => ?_
    rw [List.contains_iff_mem]
    exact List.mem_map_of_mem hd
  have hrecords : m.records.filter
      (fun r => (m.documents.map fun d => d.documentId).contains r.documentId) = m.records := by
    refine List.filter_eq_self.mpr fun r hr => ?_
    rw [List.contains_iff_mem]
    exact document_known hvalid hr
  rw [hdocuments, hrecords]
  refine Returns.bind (Returns.mapEach (m.documents.map fun d => rowsOf ids encoder library scope d.jobId) ?_)
    ?_
  · rw [List.forall₂_map_right_iff, List.forall₂_same]
    exact fun d hd => returns_expectedRecords haccounted hd
  rintro _ w₂ ⟨rfl, rfl⟩
  rw [← List.flatMap_def, byRecordId_of_perm hvalid haccounted.records, if_neg (by simp)]
  refine Returns.bind (returns_listDocuments _) ?_
  rintro rows w₃ ⟨hrows, rfl⟩
  rw [inventoryMatches_of_perm hc hvalid (hrows.trans (hpresent.listed hc hw hm)), if_neg (by simp)]
  refine Returns.bind (φ := fun _ w' => w' = w₃) ?_ ?_
  · cases sparse with
    | true => exact returns_nothing (e := .index m) () fun _ _ => Iff.rfl
    | false => exact rfl
  · rintro _ w₄ rfl
    exact ⟨rfl, rfl⟩

/-- What holds before a round of the loop of `prepare`: the rows of all records but those left are there. -/
structure Written (ids : Ids U) (scope : Scope U) (w₀ : World U) (m : Planning.PublicationManifest U)
    (left : List (Planning.RetrievalRecord U)) (w : World U) : Prop where
  sound : Sound ids scope w
  authority : w.authority = w₀.authority
  objects : w.objects = w₀.objects
  pending : ∀ r ∈ left, r ∈ m.records
  rows : ∀ r ∈ m.records, r ∈ left ∨
    w.vectors.get? (physicalId ids m.generation r.recordId) = some (vectorRow ids m r)

theorem Written.registered {w₀ : World U} {left : List (Planning.RetrievalRecord U)}
    (h : Written ids scope w₀ m left w) (hm : Registered w₀ m) : Registered w m := by
  obtain ⟨row, hrow, hobject⟩ := hm
  exact ⟨row, by rw [h.authority]; exact hrow, by rw [h.objects]; exact hobject⟩

/-- A round writes the row of its record. -/
theorem returns_writeRecord (hc : ids.CollisionFree) {w₀ : World U} (hm : Registered w₀ m)
    {r : Planning.RetrievalRecord U} {left : List (Planning.RetrievalRecord U)}
    (h : Written ids scope w₀ m (r :: left) w) :
    Returns (undisturbed ids scope library) (fun _ w' => Written ids scope w₀ m left w')
      (writeRecord ids m.generation m r) w := by
  have hr := h.pending r List.mem_cons_self
  refine Returns.bind returns_manage ?_
  rintro _ w₁ rfl
  refine Returns.bind (returns_nothing (e := .embed r.text) () fun _ _ => Iff.rfl) ?_
  rintro _ w₂ rfl
  refine Returns.bind (returns_upsert _ _) ?_
  rintro _ w₃ rfl
  refine Returns.weaken ?_ (returns_checkpoint _)
  rintro _ w₄ rfl
  have hrow : RowOf ids w₂ (physicalId ids m.generation r.recordId) (vectorRow ids m r) :=
    ⟨m, r, h.registered hm, hr, rfl, rfl⟩
  refine ⟨(sound_row h.sound (.inr hrow) fun n s hn hs hid => hrow.same hc h.sound hn hs hid).1,
    h.authority, h.objects, fun s hs => h.pending s (List.mem_cons_of_mem _ hs), fun s hs => ?_⟩
  show _ ∨ Dict.get? (Dict.set _ _ _) _ = _
  rw [Dict.get?_set]
  by_cases hid : physicalId ids m.generation s.recordId = physicalId ids m.generation r.recordId
  · rw [if_pos hid, records_inj (h.sound.valid (h.registered hm)) hs hr (physicalId_inj hc hid).2]
    exact .inr rfl
  · rw [if_neg hid]
    refine (h.rows s hs).imp_left fun hleft => (List.mem_cons.mp hleft).resolve_left ?_
    rintro rfl
    exact hid rfl

/-- The candidate becomes ready. -/
theorem returns_markReady (generation : U) : Returns (undisturbed ids scope library)
    (fun _ w' => w' = { w with authority := w.authority.next (.mark generation .ready none) })
    (mark generation .ready none) w := by
  refine Returns.perform ⟨.ok (), _, ⟨none, rfl, trivial, rfl⟩, (), rfl⟩ ?_
  rintro r w' ⟨h, a, rfl⟩
  obtain ⟨answer, -, -, hw⟩ := h
  exact ⟨a, rfl, hw⟩

/-- The `try` of `prepare`: all rows are written, and the candidate becomes ready. -/
theorem returns_writeAll (hc : ids.CollisionFree) (hw : Sound ids scope w) (hm : Registered w m)
    (haccounted : Accounted ids encoder library scope m) :
    Returns (undisturbed ids scope library) (fun a w' => a = m ∧ ∃ w₁, Written ids scope w m [] w₁
      ∧ w' = { w₁ with authority := w.authority.next (.mark m.generation .ready none) })
      (writeAll ids encoder scope m.generation m) w := by
  refine Returns.bind (returns_checkpoint _) ?_
  rintro _ w₀ rfl
  refine Returns.bind (Returns.forEach (J := Written ids scope w₀ m)
    (fun r left w' h => returns_writeRecord hc hm h)
    ⟨hw, rfl, rfl, fun _ hr => hr, fun _ hr => .inl hr⟩) fun _ w₁ hwritten => ?_
  have hpresent : Present ids w₁ m := fun r hr => (hwritten.rows r hr).resolve_left List.not_mem_nil
  refine Returns.bind (returns_checkpoint _) ?_
  rintro _ w₂ rfl
  refine Returns.bind (returns_validate hc hwritten.sound (hwritten.registered hm) hpresent haccounted true) ?_
  rintro _ w₃ ⟨-, rfl⟩
  refine Returns.bind (returns_checkpoint _) ?_
  rintro _ w₄ rfl
  refine Returns.bind (returns_markReady _) ?_
  rintro _ w₅ rfl
  exact ⟨rfl, w₄, hwritten, by rw [← hwritten.authority]⟩

/-- The row of a candidate that `mark` makes ready. -/
theorem marked_ready {db : Authority U} {generation : U} {row : CandidateRow U}
    (hrow : db.candidate? generation = some row)
    (hstate : row.state = .preparing ∨ row.state = .ready ∨ row.state = .failed) :
    (db.next (.mark generation .ready none)).candidate? generation
      = some { row with state := .ready, error := none } := by
  show Authority.candidate? (Authority.mk db.active (Table.update (Authority.marks generation)
    (fun row => { row with state := .ready, error := none }) db.candidates) db.activations) generation = _
  rw [Authority.candidate_update (Authority.marks generation) (fun row => { row with state := .ready, error := none })
    fun _ => rfl, hrow, Option.map_some, if_pos]
  simp only [Authority.marks, Bool.and_eq_true, Bool.or_eq_true, decide_eq_true_eq, beq_iff_eq]
  exact ⟨(Table.lookup_mem hrow).2, or_assoc.mpr hstate⟩

/-- What an interrupted preparation left is prepared. -/
theorem returns_prepare (hc : ids.CollisionFree) (hw : Sound ids scope w) (hm : Registered w m)
    (haccounted : Accounted ids encoder library scope m) {row : CandidateRow U}
    (hrow : w.authority.candidate? m.generation = some row)
    (hstate : row.state = .preparing ∨ row.state = .ready ∨ row.state = .failed)
    (hactive : w.authority.active = m.base) :
    Returns (undisturbed ids scope library) (fun a w' => a = m ∧ Sound ids scope w' ∧ Registered w' m
      ∧ Present ids w' m ∧ w'.authority.active = m.base
      ∧ w'.authority.candidate? m.generation = some { row with state := .ready, error := none })
      (prepare ids encoder scope m.generation) w := by
  refine Returns.bind returns_manage ?_
  rintro _ w₁ rfl
  refine Returns.bind (returns_manifest hw hm haccounted.inScope fun _ => haccounted.profile) ?_
  rintro m w₂ ⟨rfl, rfl⟩
  refine Returns.bind (returns_candidate hrow) ?_
  rintro _ w₃ ⟨rfl, rfl⟩
  dsimp only
  rw [if_neg (by rintro h; rw [h] at hstate; simp at hstate)]
  refine Returns.bind returns_active ?_
  rintro _ w₄ ⟨rfl, rfl⟩
  rw [if_neg (not_not.mpr (hactive.trans (hw.base m row hm hrow).symm))]
  refine Returns.weaken ?_ (Returns.handle (returns_writeAll hc hw hm haccounted))
  rintro m w₅ ⟨rfl, w₆, hwritten, rfl⟩
  have hpresent : Present ids w₆ m := fun r hr => (hwritten.rows r hr).resolve_left List.not_mem_nil
  have hregistered := hwritten.registered hm
  have hsound := sound_authority (c := .mark m.generation .ready none) hwritten.sound
    fun _ => ⟨m, rfl, hregistered, hpresent⟩
  have hevolves := evolves_authority ids w₆ (.mark m.generation .ready none)
  rw [hwritten.authority] at hsound hevolves
  exact ⟨rfl, hsound, hregistered.later hevolves, hevolves.present m hregistered hpresent, hactive,
    marked_ready hrow hstate⟩

/-- A ready candidate is activated over its base. -/
theorem activate_ready {db : Authority U} (hlinear : db.Linear) {generation : U} {row : CandidateRow U}
    (hrow : db.candidate? generation = some row) (hstate : row.state = .ready) (hbase : row.base = db.active)
    (hepoch : db.active.epoch + 1 < 2 ^ 63) :
    (db.step (.activate generation db.active .forward)).1
        = .ok (some ⟨some generation, db.active.epoch + 1⟩) ∧
      (db.next (.activate generation db.active .forward)).active
        = ⟨some generation, db.active.epoch + 1⟩ := by
  have hrepeats : db.repeats generation db.active .forward = false := by
    rw [Authority.repeats, Bool.and_eq_false_iff]
    refine .inl (decide_eq_false fun h => ?_)
    have hsame := congrArg ActivePublication.epoch h
    exact absurd hsame (by simp)
  have hevent : db.activation? (db.active.epoch + 1) = none := by
    cases hfound : db.activation? (db.active.epoch + 1) with
    | none => rfl
    | some event =>
      obtain ⟨hmem, hkey⟩ := hlinear.activation?_iff.mp hfound
      obtain ⟨hepochs, hlast⟩ := Authority.path_epochs hlinear.path
      have hin := List.mem_map_of_mem (f := ActivationRow.epoch) hmem
      rw [hepochs, List.mem_range', hkey] at hin
      obtain ⟨i, hi, heq⟩ := hin
      omega
  have hbody : (Authority.Call.activate generation db.active .forward).body db = .ok
      (some ⟨some generation, db.active.epoch + 1⟩,
        { active := ⟨some generation, db.active.epoch + 1⟩
          candidates := Table.update (fun row => decide (row.generation = generation))
            (fun row => { row with state := .accepted, error := none }) db.candidates
          activations := db.activations
            ++ [⟨db.active.epoch + 1, generation, db.active, .forward⟩] }) := by
    show Authority.activate _ _ _ _ = _
    rw [Authority.activate, if_neg (by omega), hrepeats, if_neg (by simp), if_neg (by simp), hrow, Option.any_some,
      if_pos (by simp [Authority.admits, hstate, hbase]), Authority.write, hevent]
    rfl
  rw [Authority.next, Authority.step, transact, hbody]
  exact ⟨rfl, rfl⟩

theorem returns_activate (hc : ids.CollisionFree) (hw : Sound ids scope w) (hm : Registered w m)
    (hpresent : Present ids w m) (haccounted : Accounted ids encoder library scope m) {row : CandidateRow U}
    (hrow : w.authority.candidate? m.generation = some row) (hstate : row.state = .ready)
    (hactive : w.authority.active = m.base) (hepoch : m.base.epoch + 1 < 2 ^ 63) :
    Returns (undisturbed ids scope library) (fun a w' => a = ⟨some m.generation, m.base.epoch + 1⟩
      ∧ w'.authority.active = a ∧ Sound ids scope w' ∧ Registered w' m ∧ Present ids w' m)
      (activate ids encoder scope m.generation) w := by
  refine Returns.bind returns_manage ?_
  rintro _ w₁ rfl
  refine Returns.bind (returns_validate hc hw hm hpresent haccounted true) ?_
  rintro m w₂ ⟨rfl, rfl⟩
  refine Returns.bind (returns_candidate hrow) ?_
  rintro _ w₃ ⟨rfl, rfl⟩
  have hbase := hw.base m row hm hrow
  refine Returns.bind (returns_checkpoint _) ?_
  rintro _ w₄ rfl
  refine Returns.bind returns_manage ?_
  rintro _ w₅ rfl
  rw [hbase, ← hactive]
  obtain ⟨hanswer, hnext⟩ := activate_ready hw.linear hrow hstate (hbase.trans hactive.symm)
    (by rw [hactive]; exact hepoch)
  refine Returns.bind (φ := fun a w' => a = ⟨some m.generation, w₅.authority.active.epoch + 1⟩ ∧
    w' = { w₅ with authority := w₅.authority.next (.activate m.generation w₅.authority.active .forward) })
    ?_ ?_
  · refine Returns.perform ⟨.ok _, _, ⟨_, hanswer, rfl, rfl⟩, _, rfl⟩ ?_
    rintro r w' ⟨h, a, rfl⟩
    obtain ⟨answer, ha, rfl, hw'⟩ := h
    exact ⟨a, rfl, Option.some.inj (Except.ok.inj (ha.symm.trans hanswer)), hw'⟩
  · rintro a w₆ ⟨rfl, rfl⟩
    refine Returns.bind (returns_checkpoint _) ?_
    rintro _ w₇ rfl
    have hevolves := evolves_authority ids w₅ (.activate m.generation w₅.authority.active .forward)
    have hsound := sound_authority (c := .activate m.generation w₅.authority.active .forward) hw trivial
    exact ⟨rfl, hnext, hsound, hm.later hevolves, hevolves.present m hm hpresent⟩

/-! ### Planning -/

theorem returns_plannedJob {jobId : U} {p : Planning.AcceptedDocument U × List (Planning.RetrievalRecord U)}
    (h : planJob ids library scope encoder jobId = .ok p) : Returns (undisturbed ids scope library)
      (fun q w' => q = p ∧ w' = w) (plannedJob ids encoder jobId) w := by
  obtain ⟨a, ha, hdocument, -, hrecords, -⟩ := planJob_ok h
  refine Returns.bind (returns_acceptedJob ha) ?_
  rintro a w₁ ⟨rfl, rfl⟩
  rw [hdocument, hrecords]
  exact ⟨rfl, rfl⟩

theorem plan_base {jobIds : List U} {base : ActivePublication U}
    {previous : Option (Planning.PublicationManifest U)}
    (h : planPublication ids library scope jobIds base encoder previous = .ok m) : m.base = base := by
  obtain ⟨all, -, hm⟩ := bind_eq_ok.mp h
  unfold manifestValues at hm
  dsimp only at hm
  split at hm
  · obtain rfl := Except.ok.inj hm
    rfl
  · cases hm

theorem returns_planned {jobIds : List U} {base : ActivePublication U}
    {previous : Option (Planning.PublicationManifest U)}
    (h : planPublication ids library scope jobIds base encoder previous = .ok m) :
    Returns (undisturbed ids scope library) (fun a w' => a = m ∧ w' = w)
      (planned ids encoder scope jobIds base previous) w := by
  obtain ⟨all, hall, hm⟩ := bind_eq_ok.mp h
  refine Returns.bind (Returns.mapEach all ((mapM_eq_ok.mp hall).imp fun _ _ => returns_plannedJob)) ?_
  rintro _ w₁ ⟨rfl, rfl⟩
  dsimp only at hm ⊢
  rw [hm]
  exact ⟨rfl, rfl⟩

/-- The manifest that a plan in this state compares with. -/
def Previous (w : World U) (scope : Scope U) (previous : Option (Planning.PublicationManifest U)) : Prop :=
  w.authority.active.generation = previous.map (fun m => m.generation)
    ∧ ∀ m, previous = some m → Registered w m ∧ m.scope = scope

/-- A new publication is planned. -/
theorem returns_plan (hw : Sound ids scope w) {jobIds : List U}
    {previous : Option (Planning.PublicationManifest U)} (hprevious : Previous w scope previous)
    (hplan : planPublication ids library scope jobIds w.authority.active encoder previous = .ok m)
    (hdiffers : ∀ p, previous = some p → republishes m p = false)
    (hnew : w.authority.candidate? m.generation = none)
    (hfree : w.objects.get? (manifestRef ids scope m).key = none) :
    Returns (undisturbed ids scope library) (fun a w' => a = m ∧
        w'.authority.active = w.authority.active ∧ Registered w' m ∧
        w'.authority.candidate? m.generation
          = some ⟨m.generation, manifestRef ids scope m, m.base, .preparing, none⟩)
      (plan ids encoder scope jobIds) w := by
  have hbase := plan_base hplan
  refine Returns.bind returns_manage ?_
  rintro _ w₁ rfl
  refine Returns.bind returns_active ?_
  rintro _ w₂ ⟨rfl, rfl⟩
  refine Returns.bind (φ := fun p w' => p = previous ∧ w' = w₂) ?_ ?_
  · unfold previousManifest
    rw [hprevious.1]
    cases previous with
    | none => exact ⟨rfl, rfl⟩
    | some p =>
      obtain ⟨hp, hscope⟩ := hprevious.2 p rfl
      refine Returns.bind (returns_manifest hw hp hscope (by simp)) ?_
      rintro p w₃ ⟨rfl, rfl⟩
      exact ⟨rfl, rfl⟩
  rintro previous w₃ ⟨rfl, rfl⟩
  refine Returns.bind (returns_planned hplan) ?_
  rintro m w₄ ⟨rfl, rfl⟩
  have hfilter : previous.filter (republishes m) = none := by
    cases previous with
    | none => rfl
    | some p => rw [Option.filter_some, hdiffers p rfl, if_neg (by simp)]
  rw [hfilter]
  refine Returns.bind returns_known ?_
  rintro _ w₅ ⟨rfl, rfl⟩
  rw [if_neg]
  swap
  · rw [List.any_map, List.any_eq_true]
    rintro ⟨row, hrow, heq⟩
    exact Table.lookup_eq_none.mp hnew row hrow (of_decide_eq_true heq)
  -- the manifest is stored, and then registered
  refine Returns.bind (φ := fun ref w' => ref = manifestRef ids scope m ∧ w' = { w₅ with
    objects := w₅.objects.set (manifestRef ids scope m).key (manifestRef ids scope m, m) }) ?_ ?_
  · refine Returns.perform ⟨.ok (manifestRef ids scope m), _, ⟨.inr ⟨hfree, rfl⟩, fun ref h => ?_⟩, _, rfl⟩ ?_
    · obtain rfl := Except.ok.inj h
      exact ⟨rfl, m, (Dict.get?_set _ _ _ _).trans (if_pos rfl)⟩
    · rintro r w' ⟨⟨hw', hr⟩, ref, rfl⟩
      obtain ⟨rfl, stored, hstored⟩ := hr ref rfl
      refine ⟨_, rfl, rfl, ?_⟩
      rcases hw' with rfl | ⟨-, rfl⟩
      · rw [hfree] at hstored
        cases hstored
      · rfl
  rintro _ w₆ ⟨rfl, rfl⟩
  have hregister : Authority.register ⟨m.generation, m.base⟩ (manifestRef ids scope m) w₅.authority
      = .ok (none, { w₅.authority with candidates := w₅.authority.candidates
        ++ [⟨m.generation, manifestRef ids scope m, m.base, .preparing, none⟩] }) := by
    unfold Authority.register
    dsimp only
    rw [hnew]
    dsimp only
    rw [if_neg (not_not.mpr hbase.symm)]
  have hstep : (w₅.authority.step (.register ⟨m.generation, m.base⟩ (manifestRef ids scope m))).1 = .ok none ∧
      w₅.authority.next (.register ⟨m.generation, m.base⟩ (manifestRef ids scope m))
        = { w₅.authority with candidates := w₅.authority.candidates
          ++ [⟨m.generation, manifestRef ids scope m, m.base, .preparing, none⟩] } := by
    have hbody : (Authority.Call.register ⟨m.generation, m.base⟩ (manifestRef ids scope m)).body w₅.authority
        = _ := hregister
    rw [Authority.next, Authority.step, transact, hbody]
    exact ⟨rfl, rfl⟩
  have hrow : (w₅.authority.next (.register ⟨m.generation, m.base⟩ (manifestRef ids scope m))).candidate?
      m.generation = some ⟨m.generation, manifestRef ids scope m, m.base, .preparing, none⟩ := by
    rw [hstep.2]
    show List.find? _ (_ ++ _) = _
    rw [List.find?_append, show List.find? _ w₅.authority.candidates = none from hnew, Option.none_or,
      List.find?_singleton, if_pos (decide_eq_true rfl)]
  refine Returns.bind (φ := fun _ w' => w' = { w₅ with
    authority := w₅.authority.next (.register ⟨m.generation, m.base⟩ (manifestRef ids scope m))
    objects := w₅.objects.set (manifestRef ids scope m).key (manifestRef ids scope m, m) }) ?_ ?_
  · refine Returns.perform ⟨.ok (), _, ⟨none, hstep.1, trivial, rfl⟩, (), rfl⟩ ?_
    rintro r w' ⟨h, a, rfl⟩
    obtain ⟨answer, -, -, rfl⟩ := h
    exact ⟨a, rfl, rfl⟩
  · rintro _ w₇ rfl
    refine ⟨rfl, by rw [hstep.2], ⟨_, hrow, ?_⟩, hrow⟩
    rw [Dict.get?_set, if_pos rfl]

/-! ### A publication from the first plan on -/

/-- A method that runs alone leads to a reachable state. -/
theorem Reachable.returns (h : Reachable ids encoder scope w) {α : Type} {p : Method U α}
    (hstart : Starts ids encoder scope (forget p)) {φ : α → World U → Prop}
    (hp : Returns (undisturbed ids scope library) φ p w) :
    ∃ a w', φ a w' ∧ Reachable ids encoder scope w' := by
  obtain ⟨running, hrun⟩ := h
  have hforget : Returns (undisturbed ids scope library) (fun _ w' => ∃ a, φ a w') (forget p) w :=
    Returns.bind hp fun a w' ha => ⟨a, ha⟩
  obtain ⟨_, w', ⟨a, ha⟩, hrest⟩ := Returns.runs (fun _ _ _ _ => undisturbed_answers) hforget running
  exact ⟨a, w', ha, _, (hrun.tail (.started hstart)).trans hrest⟩

section Sample

theorem retrievalIds_collisionFree : retrievalIds.CollisionFree := tableIds_collisionFree _ _

/-- A valid manifest with documents has records. -/
theorem records_ne_nil (hvalid : m.valid ids = true) (h : m.documents ≠ []) : m.records ≠ [] := by
  simp only [Planning.PublicationManifest.valid, Bool.and_eq_true, sameSet, List.all_eq_true] at hvalid
  obtain ⟨d, hd⟩ := List.exists_mem_of_ne_nil _ h
  have hkey := Dict.get?_ofList_of_mem
    (List.mem_map_of_mem (f := Prod.fst) (List.mem_map_of_mem
      (f := fun d : Planning.AcceptedDocument U => (d.documentId, d.toAcceptedDocument)) hd))
  obtain ⟨v, hv⟩ := hkey
  intro hnil
  have hmem := hvalid.2.1 _ (List.mem_map_of_mem (Dict.mem_of_get? hv))
  rw [hnil] at hmem
  cases hmem

/-- The first publication of the sample is planned. -/
theorem sample_candidate : ∃ (w : World Nat) (m : Planning.PublicationManifest Nat) (row : CandidateRow Nat),
    Reachable retrievalIds sampleEncoder sampleScope w ∧
    planPublication retrievalIds sampleLibrary sampleScope [1] ⟨none, 0⟩ sampleEncoder none = .ok m ∧
    m.documents ≠ [] ∧ w.authority.active = ⟨none, 0⟩ ∧ Registered w m ∧
    w.authority.candidate? m.generation = some row ∧ row.state = .preparing ∧ row.base = ⟨none, 0⟩ := by
  obtain ⟨m, hm⟩ := sample_planned
  have hdocuments : m.documents ≠ [] := by
    have hdraft := ((planPublication_eq_ok sample_first).mp hm).2
    unfold manifestValues at hdraft
    dsimp only at hdraft
    split at hdraft
    · obtain rfl := Except.ok.inj hdraft
      exact List.cons_ne_nil _ _
    · cases hdraft
  obtain ⟨a, w, ⟨rfl, hactive, hregistered, hrow⟩, hreachable⟩ :=
    Reachable.returns ⟨[], .refl⟩ (.plan [1])
      (returns_plan sound_initial ⟨rfl, fun _ h => by cases h⟩ hm (fun _ h => by cases h) rfl rfl)
  exact ⟨w, a, _, hreachable, hm, hdocuments, hactive, hregistered, hrow, rfl, plan_base hm⟩

end Sample

/-! ### The results -/

/-- An interrupted publication can be finished: in any reachable state, a candidate that is not accepted or
stale, based on what is active, is prepared and activated, if nothing raises and the jobs still answer what
it was planned from.  Then the vector store has exactly the rows of its records. -/
theorem publication_resumes (hc : ids.CollisionFree) (h : Reachable ids encoder scope w) {jobIds : List U}
    {base : ActivePublication U} {previous : Option (Planning.PublicationManifest U)}
    (hplan : planPublication ids library scope jobIds base encoder previous = .ok m)
    {row : CandidateRow U} (hrow : w.authority.candidate? m.generation = some row)
    (hobject : w.objects.get? row.manifest.key = some (row.manifest, m))
    (hstate : row.state = .preparing ∨ row.state = .ready ∨ row.state = .failed)
    (hactive : w.authority.active = row.base) (hepoch : row.base.epoch + 1 < 2 ^ 63) :
    Returns (undisturbed ids scope library) (fun a w' => a = ⟨some m.generation, row.base.epoch + 1⟩
        ∧ w'.authority.active = a ∧ ((w'.vectors.map Prod.snd).filter
          (VectorDocument.matches (some ⟨ids.uuidStr m.generation, []⟩))).Perm
            (m.records.map (vectorRow ids m)))
      (do
        let _ ← prepare ids encoder scope m.generation
        activate ids encoder scope m.generation) w := by
  have hw := h.sound hc
  have hm : Registered w m := ⟨row, hrow, hobject⟩
  have haccounted := accounted_of_plan hplan
  have hbase := hw.base m row hm hrow
  refine Returns.bind (returns_prepare hc hw hm haccounted hrow hstate (hactive.trans hbase)) ?_
  rintro m w₁ ⟨rfl, hw₁, hm₁, hpresent, hactive₁, hrow₁⟩
  rw [hbase] at hepoch ⊢
  refine Returns.weaken ?_ (returns_activate hc hw₁ hm₁ hpresent haccounted hrow₁ rfl hactive₁ hepoch)
  rintro a w₂ ⟨ha, hactive₂, hw₂, hm₂, hpresent₂⟩
  exact ⟨ha, hactive₂, hpresent₂.listed hc hw₂ hm₂⟩

theorem publication_resumes_sample : ∃ (w : World Nat) (m : Planning.PublicationManifest Nat), Reachable retrievalIds sampleEncoder sampleScope w ∧
    Returns (undisturbed retrievalIds sampleScope sampleLibrary)
      (fun a w' => a = ⟨some m.generation, 1⟩ ∧ w'.authority.active = a ∧ ((w'.vectors.map Prod.snd).filter
        (VectorDocument.matches (some ⟨retrievalIds.uuidStr m.generation, []⟩))).Perm
          (m.records.map (vectorRow retrievalIds m)))
      (do
        let _ ← prepare retrievalIds sampleEncoder sampleScope m.generation
        activate retrievalIds sampleEncoder sampleScope m.generation) w := by
  obtain ⟨w, m, row, hreachable, hplan, -, hactive, ⟨row', hrow', hobject⟩, hrow, hstate, hbase⟩ :=
    sample_candidate
  obtain rfl := Option.some.inj (hrow'.symm.trans hrow)
  have hresumes := publication_resumes retrievalIds_collisionFree hreachable hplan hrow hobject (.inl hstate)
    (hactive.trans hbase.symm) (by rw [hbase]; decide)
  rw [hbase] at hresumes
  exact ⟨w, m, hreachable, hresumes⟩

/-- What is published is intact in every reachable state: the active generation is accepted, and a
generation that is ready or accepted has one valid manifest, and in the vector store exactly the rows of
its records, for any selection of documents. -/
theorem publication_intact (hc : ids.CollisionFree) (h : Reachable ids encoder scope w) :
    (∀ generation, w.authority.active.generation = some generation →
      ∃ row, w.authority.candidate? generation = some row ∧ row.state = .accepted) ∧
    ∀ generation row, w.authority.candidate? generation = some row →
      row.state = .ready ∨ row.state = .accepted →
      ∃ m, w.objects.get? row.manifest.key = some (row.manifest, m) ∧ m.generation = generation
        ∧ m.valid ids = true ∧ ∀ documentIds : List U, ((w.vectors.map Prod.snd).filter
          (VectorDocument.matches (some ⟨ids.uuidStr generation, documentIds.map ids.uuidStr⟩))).Perm
            ((m.records.filter fun r => documentIds.isEmpty || documentIds.contains r.documentId).map
              (vectorRow ids m)) := by
  have hw := h.sound hc
  refine ⟨fun _ => hw.active_accepted, fun generation row hrow hstate => ?_⟩
  obtain ⟨m, rfl, hm⟩ := hw.registered generation row hrow
  have hpresent := hw.complete m row hm hrow hstate
  obtain ⟨row', hrow', hobject⟩ := hm
  obtain rfl := Option.some.inj (hrow'.symm.trans hrow)
  have hm : Registered w m := ⟨row', hrow', hobject⟩
  exact ⟨m, hobject, rfl, hw.valid hm, hpresent.selected hc hw hm⟩

/-- The sample is published. -/
theorem publication_intact_sample : ∃ (w : World Nat) (m : Planning.PublicationManifest Nat),
    w.authority.active = ⟨some m.generation, 1⟩ ∧ m.records ≠ [] ∧ ((w.vectors.map Prod.snd).filter
      (VectorDocument.matches (some ⟨retrievalIds.uuidStr m.generation, []⟩))).Perm
        (m.records.map (vectorRow retrievalIds m)) := by
  have hc := retrievalIds_collisionFree
  obtain ⟨w, m, row, hreachable, hplan, hdocuments, hactive, hm, hrow, hstate, hbase⟩ := sample_candidate
  have haccounted := accounted_of_plan hplan
  have hsame := (hreachable.sound hc).base m row hm hrow
  obtain ⟨a, w₁, ⟨rfl, hw₁, hm₁, hpresent, hactive₁, hrow₁⟩, hreachable₁⟩ :=
    hreachable.returns (.prepare m.generation) (returns_prepare hc (hreachable.sound hc) hm haccounted hrow
      (.inl hstate) (hactive.trans (hbase.symm.trans hsame)))
  obtain ⟨b, w₂, ⟨rfl, hactive₂, hw₂, hm₂, -⟩, hreachable₂⟩ :=
    hreachable₁.returns (.activate a.generation) (returns_activate hc hw₁ hm₁ hpresent haccounted hrow₁ rfl
      hactive₁ (by rw [← hsame, hbase]; decide))
  obtain ⟨haccepted, hintact⟩ := publication_intact hc hreachable₂
  obtain ⟨row₂, hrow₂, hstate₂⟩ := haccepted a.generation (by rw [hactive₂])
  obtain ⟨n, hobject, hgeneration, -, hrows⟩ := hintact _ row₂ hrow₂ (.inr hstate₂)
  have hn : Registered w₂ n := ⟨row₂, by rw [hgeneration]; exact hrow₂, hobject⟩
  obtain rfl := hn.unique hm₂ hgeneration
  refine ⟨w₂, n, ?_, records_ne_nil (hw₂.valid hm₂) hdocuments, ?_⟩
  · rw [hactive₂, ← hsame, hbase]
  · have hall := hrows []
    have hself : n.records.filter (fun r => ([] : List Nat).isEmpty || ([] : List Nat).contains r.documentId)
        = n.records := List.filter_eq_self.mpr fun _ _ => rfl
    rwa [List.map_nil, hself] at hall

end Polymind.Publication.Service
