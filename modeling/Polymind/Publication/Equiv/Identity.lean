import Polymind.Publication.Equiv.Records
import Polymind.Lib.Sorting
import Mathlib.Data.List.Dedup

/-!
# A publication does not depend on the jobs

What a publication is made of, apart from the ids of jobs, is determined by the accepted documents
without their jobs: the references of a document lead to its artifact, its digest and its plan
(`Reads`).  The loop runs over the jobs, and the stable sorts afterwards leave nothing of their
order (`sortByText_perm`): a row carries the id of its document, and no two documents
have the same.
-/

namespace Polymind.Publication.Planning

open Json Documents Digestion

variable {U : Type} {ids : Ids U} {library : Library U} {scope : Scope U}

/-! ### Accepted documents -/

/-- The references of an accepted document lead to what its records are made of. -/
structure Reads (library : Library U) (a : Accepted U) : Prop where
  digest : library.digest a.document.digest = some a.digest
  plan : library.plan a.digest.plan = some a.plan
  artifact : library.artifact a.document.extraction = some a.artifact

theorem within_some {α : Type} {limit : Nat} {read : ObjectRef U → Option α} {ref : ObjectRef U} {a : α}
    (h : within limit read ref = some a) : read ref = some a := by
  unfold within at h
  split at h
  · exact h
  · cases h

/-- What is left of an accepted document without its job. -/
structure Content (U : Type) where
  document : Publication.AcceptedDocument U × ObjectRef U
  artifact : ExtractionArtifact U
  digest : DigestArtifact U
  plan : Plan U

def content (a : Accepted U) : Content U := ⟨a.document.withoutJob, a.artifact, a.digest, a.plan⟩

/-- The document determines the rest. -/
theorem Reads.content_eq {a b : Accepted U} (ha : Reads library a) (hb : Reads library b)
    (h : a.document.withoutJob = b.document.withoutJob) : content a = content b := by
  obtain ⟨hparent, href⟩ := Prod.mk.inj h
  have hdigest : a.digest = b.digest := by
    have hread := ha.digest
    rw [href, hb.digest] at hread
    exact (Option.some.inj hread).symm
  have hplan : a.plan = b.plan := by
    have hread := ha.plan
    rw [hdigest, hb.plan] at hread
    exact (Option.some.inj hread).symm
  have hartifact : a.artifact = b.artifact := by
    have hread := ha.artifact
    rw [hparent, hb.artifact] at hread
    exact (Option.some.inj hread).symm
  unfold content
  rw [h, hartifact, hdigest, hplan]

/-! ### What `accepted` reads -/

variable [DecidableEq U]

theorem loadDigest_some {job : DigestionJob U} {digest : DigestArtifact U} {ref coverageRef : ObjectRef U}
    (h : loadDigest library job = some (digest, ref, coverageRef)) :
    library.digest ref = some digest := by
  unfold loadDigest at h
  split at h
  · rw [Option.bind_eq_bind, Option.bind_eq_some_iff] at h
    obtain ⟨digest, hread, h⟩ := h
    split at h
    · cases h
    · obtain ⟨rfl, rfl, -⟩ := Option.some.inj h
      exact within_some hread
  · cases h

theorem accept_reads {jobId : U} {a : Accepted U} (h : accept ids library scope jobId = some a) :
    Reads library a := by
  unfold accept at h
  simp only [Option.bind_eq_bind, Option.bind_eq_some_iff] at h
  obtain ⟨job, -, h⟩ := h
  split at h
  · cases h
  · rw [Option.bind_eq_some_iff] at h
    obtain ⟨⟨digest, ref, coverageRef⟩, hdigest, h⟩ := h
    dsimp only at h
    split at h
    · cases h
    · simp only [Option.bind_eq_some_iff] at h
      obtain ⟨plan, hplan, rebuilt, -, coverage, -, h⟩ := h
      split at h
      · cases h
      · simp only [Option.bind_eq_some_iff] at h
        obtain ⟨artifact, hartifact, -, -, h⟩ := h
        obtain rfl := Option.some.inj h
        exact ⟨loadDigest_some hdigest, within_some hplan, within_some hartifact⟩

theorem accepted_reads {jobId : U} {a : Accepted U} (h : accepted ids library scope jobId = .ok a) :
    Reads library a := by
  unfold accepted at h
  split at h
  · rename_i b haccept
    obtain rfl := Except.ok.inj h
    exact accept_reads haccept
  · cases h

/-! ### The documents of a collection -/

variable (ids library scope)

/-- The jobs of a collection are all accepted, with these documents, no two of one id. -/
structure Collection (jobIds : List U) (all : List (Accepted U)) : Prop where
  accepted : List.Forall₂ (fun key a => accepted ids library scope key = .ok a)
    (sortedByStr ids jobIds.dedup) all
  distinct : (all.map fun a => a.document.documentId).Nodup

variable {ids library scope}

theorem Collection.reads {jobIds : List U} {all : List (Accepted U)}
    (h : Collection ids library scope jobIds all) {a : Accepted U} (ha : a ∈ all) : Reads library a := by
  obtain ⟨key, -, haccepted⟩ := mem_of_forall₂ h.accepted ha
  exact accepted_reads haccepted

/-- The same documents without their jobs, in some order, and all that comes with them. -/
theorem content_perm {jobs₁ jobs₂ : List U} {all₁ all₂ : List (Accepted U)}
    (h₁ : Collection ids library scope jobs₁ all₁) (h₂ : Collection ids library scope jobs₂ all₂)
    (hsame : ∀ d, d ∈ all₁.map (fun a => a.document.withoutJob)
      ↔ d ∈ all₂.map fun a => a.document.withoutJob) :
    (all₁.map content).Perm (all₂.map content) := by
  have hnodup {jobs : List U} {all : List (Accepted U)} (h : Collection ids library scope jobs all) :
      (all.map content).Nodup := by
    apply List.Nodup.of_map fun c : Content U => c.document.1.documentId
    rw [List.map_map]
    exact h.distinct
  have hsub {jobs jobs' : List U} {all all' : List (Accepted U)}
      (h : Collection ids library scope jobs all) (h' : Collection ids library scope jobs' all')
      (hin : ∀ d ∈ all.map (fun a => a.document.withoutJob),
        d ∈ all'.map fun a => a.document.withoutJob) :
      ∀ c ∈ all.map content, c ∈ all'.map content := by
    intro c hc
    obtain ⟨a, ha, rfl⟩ := List.mem_map.mp hc
    obtain ⟨b, hb, hbeq⟩ := List.mem_map.mp (hin _ (List.mem_map_of_mem ha))
    exact List.mem_map.mpr ⟨b, hb, (h'.reads hb).content_eq (h.reads ha) hbeq⟩
  rw [List.perm_ext_iff_of_nodup (hnodup h₁) (hnodup h₂)]
  intro c
  exact ⟨hsub h₁ h₂ (fun d => (hsame d).mp) c, hsub h₂ h₁ (fun d => (hsame d).mpr) c⟩

/-! ### Planning the documents -/

section

variable (ids) (encoder : RetrievalEncoder)

/-- `records`, of what it reads. -/
def Content.records (c : Content U) : Except PlanningError (List (RetrievalRecord U)) :=
  Planning.records ids c.document.1 c.artifact c.plan encoder c.digest

/-- The rows of a document, if there are any. -/
def Content.rows (c : Content U) : List (RetrievalRecord U) :=
  match c.records ids encoder with
  | .ok rows => rows
  | .error _ => []

end

variable {encoder : RetrievalEncoder}

/-- The loop, over jobs that are all accepted: it succeeds when the records of each do. -/
theorem planned_eq_ok {keys : List U} {all : List (Accepted U)}
    (haccepted : List.Forall₂ (fun key a => accepted ids library scope key = .ok a) keys all)
    {planned : List (AcceptedDocument U × List (RetrievalRecord U))} :
    keys.mapM (planJob ids library scope encoder) = .ok planned ↔
      (∀ c ∈ all.map content, c.records ids encoder = .ok (c.rows ids encoder)) ∧
        planned = all.map fun a => (a.document, (content a).rows ids encoder) := by
  rw [mapM_eq_ok]
  induction haccepted generalizing planned with
  | nil =>
    rw [List.forall₂_nil_left_iff]
    exact ⟨fun h => ⟨fun c hc => absurd hc List.not_mem_nil, h⟩, fun h => h.2⟩
  | @cons key a keys all haccepted _ ih =>
    have hjob {p : AcceptedDocument U × List (RetrievalRecord U)} :
        planJob ids library scope encoder key = .ok p ↔
          (content a).records ids encoder = .ok ((content a).rows ids encoder) ∧
            p = (a.document, (content a).rows ids encoder) := by
      unfold planJob
      rw [haccepted]
      show ((content a).records ids encoder >>= fun rows => .ok (a.document, rows)) = .ok p ↔ _
      rw [bind_eq_ok]
      unfold Content.rows
      constructor
      · rintro ⟨rows, hrows, hp⟩
        rw [hrows]
        exact ⟨rfl, (Except.ok.inj hp).symm⟩
      · rintro ⟨hrows, rfl⟩
        exact ⟨_, hrows, rfl⟩
    rw [List.forall₂_cons_left_iff, List.map_cons, List.map_cons, List.forall_mem_cons]
    constructor
    · rintro ⟨p, rest, hp, hrest, rfl⟩
      obtain ⟨hrecords, rfl⟩ := hjob.mp hp
      obtain ⟨hall, rfl⟩ := ih.mp hrest
      exact ⟨⟨hrecords, hall⟩, rfl⟩
    · rintro ⟨⟨hrecords, hall⟩, rfl⟩
      exact ⟨_, _, hjob.mpr ⟨hrecords, rfl⟩, ih.mpr ⟨hall, rfl⟩, rfl⟩

/-- What a record takes from its document and from the encoder. -/
structure Carries (ids : Ids U) (encoder : RetrievalEncoder) (document : Publication.AcceptedDocument U)
    (r : RetrievalRecord U) : Prop where
  documentId : r.documentId = document.documentId
  version : r.documentVersionId = document.documentVersionId
  extraction : r.extractionId = document.extractionId
  scope : r.evidence.scope = document.scope
  profile : r.profile = encoder.profile.digest ids

theorem sliceRecord_carries {document : Publication.AcceptedDocument U}
    {artifact : ExtractionArtifact U} {plan : Plan U} {unit : TextUnit U} {block : Block U}
    {slice : RetrievalEncoder.Slice} {r : RetrievalRecord U}
    (h : sliceRecord ids document artifact plan encoder unit block slice = .ok r) :
    Carries ids encoder document r := by
  unfold sliceRecord at h
  dsimp only at h
  rw [ite_error_eq_ok] at h
  obtain ⟨-, h⟩ := h
  split at h
  · cases h
  · rw [ite_error_eq_ok] at h
    obtain rfl := recordValues_ok h.2
    exact ⟨rfl, rfl, rfl, rfl, rfl⟩

theorem rows_carry (c : Content U) : ∀ r ∈ c.rows ids encoder, Carries ids encoder c.document.1 r := by
  unfold Content.rows
  split
  · rename_i rows hrows
    unfold Content.records Planning.records at hrows
    rw [bind_eq_ok] at hrows
    obtain ⟨blocks, hblocks, hrows⟩ := hrows
    obtain rfl := Except.ok.inj hrows
    intro r hr
    obtain ⟨rows, hrows, hr⟩ := List.mem_flatten.mp hr
    obtain ⟨p, -, hblock⟩ := mem_of_forall₂ (mapM_eq_ok.mp hblocks) hrows
    unfold blockRecords at hblock
    dsimp only at hblock
    rw [bind_eq_ok] at hblock
    obtain ⟨yielded, hyielded, hblock⟩ := hblock
    rw [bind_eq_ok] at hblock
    obtain ⟨⟨⟩, -, hblock⟩ := hblock
    obtain rfl := Except.ok.inj hblock
    obtain ⟨slice, -, hslice⟩ := mem_of_forall₂ (mapM_eq_ok.mp hyielded) hr
    exact sliceRecord_carries hslice
  · exact fun r hr => absurd hr List.not_mem_nil

/-! ### Manifests that differ in jobs only -/

/-- The same manifest up to jobs and to the generation. -/
structure Alike (m n : PublicationManifest U) : Prop where
  scope : m.scope = n.scope
  base : m.base = n.base
  profile : m.profile = n.profile
  documents : m.documents.map AcceptedDocument.withoutJob = n.documents.map AcceptedDocument.withoutJob
  records : m.records = n.records
  removedVersions : m.removedVersions = n.removedVersions

omit [DecidableEq U] in
theorem Alike.symm {m n : PublicationManifest U} (h : Alike m n) : Alike n m :=
  ⟨h.scope.symm, h.base.symm, h.profile.symm, h.documents.symm, h.records.symm,
    h.removedVersions.symm⟩

omit [DecidableEq U] in
theorem Alike.identity {m n : PublicationManifest U} (h : Alike m n) : m.identity ids = n.identity ids := by
  have hpayloads : m.documents.map (fun d => documentPayload ids d.withoutJob)
      = n.documents.map fun d => documentPayload ids d.withoutJob := by
    have := congrArg (List.map (documentPayload ids)) h.documents
    rw [List.map_map, List.map_map] at this
    exact this
  unfold PublicationManifest.identity
  rw [h.scope, h.base, h.profile, hpayloads, h.records, h.removedVersions]

theorem Alike.valid {m n : PublicationManifest U} (h : Alike m n) (hgeneration : m.generation = n.generation) :
    m.valid ids = n.valid ids := by
  -- what `valid` reads of the documents is there without their jobs
  have hdocs {β : Type} (f : Publication.AcceptedDocument U × ObjectRef U → β) :
      m.documents.map (fun d => f d.withoutJob) = n.documents.map fun d => f d.withoutJob := by
    have := congrArg (List.map f) h.documents
    rw [List.map_map, List.map_map] at this
    exact this
  have hpairs : m.documents.map (fun d => (d.documentId, d.toAcceptedDocument))
      = n.documents.map fun d => (d.documentId, d.toAcceptedDocument) :=
    hdocs fun c => (c.1.documentId, c.1)
  have hlength : m.documents.length = n.documents.length := by
    have := congrArg List.length h.documents
    rw [List.length_map, List.length_map] at this
    exact this
  have hscopes : (m.documents.all fun d => decide (d.scope = m.scope)
        && decide (d.extraction.scope = m.scope) && decide (d.digest.scope = m.scope))
      = n.documents.all fun d => decide (d.scope = m.scope)
        && decide (d.extraction.scope = m.scope) && decide (d.digest.scope = m.scope) := by
    have := congrArg (List.all · id) (hdocs fun c => decide (c.1.scope = m.scope)
      && decide (c.1.extraction.scope = m.scope) && decide (c.2.scope = m.scope))
    simp only [List.all_map] at this
    exact this
  unfold PublicationManifest.valid
  rw [hscopes, hpairs, hlength, hgeneration, h.identity, h.records, h.scope, h.profile]

theorem Alike.manifestValues {m n m' : PublicationManifest U} (h : Alike m n)
    (hm : Planning.manifestValues ids m = .ok m') :
    ∃ n', Planning.manifestValues ids n = .ok n' ∧ Alike m' n' ∧ m'.generation = n'.generation := by
  have hvalid : ({ m with generation := m.identity ids } : PublicationManifest U).valid ids
      = ({ n with generation := n.identity ids } : PublicationManifest U).valid ids :=
    Alike.valid ⟨h.scope, h.base, h.profile, h.documents, h.records, h.removedVersions⟩ h.identity
  unfold Planning.manifestValues at hm ⊢
  dsimp only at hm ⊢
  rw [← hvalid]
  split at hm
  · rename_i hok
    obtain rfl := Except.ok.inj hm
    rw [if_pos hok]
    exact ⟨_, rfl, ⟨h.scope, h.base, h.profile, h.documents, h.records, h.removedVersions⟩, h.identity⟩
  · cases hm

/-! ### The plan -/

section

variable (ids scope) (base : ActivePublication U) (encoder : RetrievalEncoder)
  (previous : Option (PublicationManifest U)) (all : List (Accepted U))

/-- `docs`, sorted. -/
def plannedDocuments : List (AcceptedDocument U) :=
  (all.map fun a => a.document).insertionSort fun a b =>
    keyLe (ids.uuidStr a.documentId) (ids.uuidStr b.documentId) = true

/-- What `plan_publication` passes to `manifest_values`. -/
def plannedDraft : PublicationManifest U :=
  ⟨scope.owner, scope, base, encoder.profile, plannedDocuments ids all,
    ((all.map content).flatMap (Content.rows ids encoder)).insertionSort fun a b =>
      keyLe (ids.uuidStr a.documentId) (ids.uuidStr b.documentId) = true,
    removedVersions ids previous (plannedDocuments ids all)⟩

end

variable {base : ActivePublication U} {previous : Option (PublicationManifest U)}

theorem planPublication_eq_ok {jobIds : List U} {all : List (Accepted U)}
    (h : Collection ids library scope jobIds all) {m : PublicationManifest U} :
    planPublication ids library scope jobIds base encoder previous = .ok m ↔
      (∀ c ∈ all.map content, c.records ids encoder = .ok (c.rows ids encoder)) ∧
        manifestValues ids (plannedDraft ids scope base encoder previous all) = .ok m := by
  unfold planPublication
  rw [bind_eq_ok]
  have hdraft : (⟨scope.owner, scope, base, encoder.profile,
      ((all.map fun a => (a.document, (content a).rows ids encoder)).map Prod.fst).insertionSort
        fun a b => keyLe (ids.uuidStr a.documentId) (ids.uuidStr b.documentId) = true,
      ((all.map fun a => (a.document, (content a).rows ids encoder)).flatMap Prod.snd).insertionSort
        fun a b => keyLe (ids.uuidStr a.documentId) (ids.uuidStr b.documentId) = true,
      removedVersions ids previous
        (((all.map fun a => (a.document, (content a).rows ids encoder)).map Prod.fst).insertionSort
          fun a b => keyLe (ids.uuidStr a.documentId) (ids.uuidStr b.documentId) = true)⟩ :
      PublicationManifest U) = plannedDraft ids scope base encoder previous all := by
    unfold plannedDraft plannedDocuments
    rw [List.map_map, List.flatMap_map, List.flatMap_map]
    rfl
  constructor
  · rintro ⟨planned, hplanned, hm⟩
    obtain ⟨hrecords, rfl⟩ := (planned_eq_ok h.accepted).mp hplanned
    dsimp only at hm
    rw [hdraft] at hm
    exact ⟨hrecords, hm⟩
  · rintro ⟨hrecords, hm⟩
    refine ⟨_, (planned_eq_ok h.accepted).mpr ⟨hrecords, rfl⟩, ?_⟩
    dsimp only
    rw [hdraft]
    exact hm

omit [DecidableEq U] in
/-- The documents without their jobs do not depend on the order of the jobs. -/
theorem plannedDocuments_withoutJob (hstr : Function.Injective ids.uuidStr)
    {all₁ all₂ : List (Accepted U)} (hperm : (all₁.map content).Perm (all₂.map content))
    (hdistinct : (all₁.map fun a => a.document.documentId).Nodup) :
    (plannedDocuments ids all₁).map AcceptedDocument.withoutJob
      = (plannedDocuments ids all₂).map AcceptedDocument.withoutJob := by
  -- sorting commutes with leaving the jobs out
  have hsorted (all : List (Accepted U)) :
      (plannedDocuments ids all).map AcceptedDocument.withoutJob
        = ((all.map content).flatMap fun c => [c.document]).insertionSort fun a b =>
          keyLe (ids.uuidStr a.1.documentId) (ids.uuidStr b.1.documentId) = true := by
    unfold plannedDocuments
    have hmap := List.map_insertionSort
      (fun a b : AcceptedDocument U => keyLe (ids.uuidStr a.documentId) (ids.uuidStr b.documentId) = true)
      (fun a b : Publication.AcceptedDocument U × ObjectRef U =>
        keyLe (ids.uuidStr a.1.documentId) (ids.uuidStr b.1.documentId) = true)
      AcceptedDocument.withoutJob (all.map fun a => a.document) fun _ _ _ _ => Iff.rfl
    rw [hmap, List.map_map, ← List.map_eq_flatMap, List.map_map]
    rfl
  rw [hsorted, hsorted]
  apply sortByText_perm (fun d : Publication.AcceptedDocument U × ObjectRef U =>
    ids.uuidStr d.1.documentId) hperm
  rw [List.pairwise_map]
  rw [List.nodup_iff_pairwise_ne, List.pairwise_map] at hdistinct
  refine hdistinct.imp fun {a b} hne x hx y hy heq => hne ?_
  obtain rfl := List.mem_singleton.mp hx
  obtain rfl := List.mem_singleton.mp hy
  exact hstr heq

theorem plannedDraft_alike (hstr : Function.Injective ids.uuidStr) {all₁ all₂ : List (Accepted U)}
    (hperm : (all₁.map content).Perm (all₂.map content))
    (hdistinct : (all₁.map fun a => a.document.documentId).Nodup) :
    Alike (plannedDraft ids scope base encoder previous all₁)
      (plannedDraft ids scope base encoder previous all₂) := by
  have hdocs := plannedDocuments_withoutJob hstr hperm hdistinct
  refine ⟨rfl, rfl, rfl, hdocs, ?_, ?_⟩
  · -- a row carries the id of its document
    apply sortByText_perm (fun r : RetrievalRecord U => ids.uuidStr r.documentId) hperm
    rw [List.pairwise_map]
    rw [List.nodup_iff_pairwise_ne, List.pairwise_map] at hdistinct
    refine hdistinct.imp fun {a b} hne x hx y hy heq => hne ?_
    have hids := hstr heq
    rw [(rows_carry _ x hx).documentId, (rows_carry _ y hy).documentId] at hids
    exact hids
  · have hversions : (plannedDocuments ids all₁).map (fun d => d.documentVersionId)
        = (plannedDocuments ids all₂).map fun d => d.documentVersionId := by
      have := congrArg (List.map fun c => c.1.documentVersionId) hdocs
      rw [List.map_map, List.map_map] at this
      exact this
    show removedVersions ids previous (plannedDocuments ids all₁)
      = removedVersions ids previous (plannedDocuments ids all₂)
    unfold removedVersions
    rw [hversions]

/-- One plan leads to the other. -/
theorem planPublication_alike (hstr : Function.Injective ids.uuidStr) {jobs₁ jobs₂ : List U}
    {all₁ all₂ : List (Accepted U)} (h₁ : Collection ids library scope jobs₁ all₁)
    (h₂ : Collection ids library scope jobs₂ all₂)
    (hperm : (all₁.map content).Perm (all₂.map content)) {m : PublicationManifest U}
    (hm : planPublication ids library scope jobs₁ base encoder previous = .ok m) :
    ∃ n, planPublication ids library scope jobs₂ base encoder previous = .ok n ∧ Alike m n ∧
      m.generation = n.generation := by
  obtain ⟨hrecords, hm⟩ := (planPublication_eq_ok h₁).mp hm
  obtain ⟨n, hn, halike, hgeneration⟩ :=
    (plannedDraft_alike hstr hperm h₁.distinct).manifestValues hm
  refine ⟨n, (planPublication_eq_ok h₂).mpr ⟨fun c hc => ?_, hn⟩, halike, hgeneration⟩
  exact hrecords c (hperm.mem_iff.mpr hc)

/-- **Identity of a publication.**  Two collections of jobs, in any order and with any repetitions,
that are accepted with the same documents up to their jobs, no two of one id: one is planned when the
other is, into the same generation, the same records in the same order and the same documents in the
same order up to their jobs. -/
theorem plan_identity (hstr : Function.Injective ids.uuidStr) {jobs₁ jobs₂ : List U}
    {all₁ all₂ : List (Accepted U)} (h₁ : Collection ids library scope jobs₁ all₁)
    (h₂ : Collection ids library scope jobs₂ all₂)
    (hsame : ∀ d, d ∈ all₁.map (fun a => a.document.withoutJob)
      ↔ d ∈ all₂.map fun a => a.document.withoutJob) :
    ((∃ m, planPublication ids library scope jobs₁ base encoder previous = .ok m)
      ↔ ∃ n, planPublication ids library scope jobs₂ base encoder previous = .ok n) ∧
    ∀ m n, planPublication ids library scope jobs₁ base encoder previous = .ok m →
      planPublication ids library scope jobs₂ base encoder previous = .ok n →
      m.generation = n.generation ∧ m.records = n.records ∧
        m.documents.map AcceptedDocument.withoutJob = n.documents.map AcceptedDocument.withoutJob := by
  have hperm := content_perm h₁ h₂ hsame
  refine ⟨⟨fun ⟨m, hm⟩ => ?_, fun ⟨n, hn⟩ => ?_⟩, fun m n hm hn => ?_⟩
  · obtain ⟨n, hn, -⟩ := planPublication_alike hstr h₁ h₂ hperm hm
    exact ⟨n, hn⟩
  · obtain ⟨m, hm, -⟩ := planPublication_alike hstr h₂ h₁ hperm.symm hn
    exact ⟨m, hm⟩
  · obtain ⟨n', hn', halike, hgeneration⟩ := planPublication_alike hstr h₁ h₂ hperm hm
    obtain rfl := Except.ok.inj (hn'.symm.trans hn)
    exact ⟨hgeneration, halike.records, halike.documents⟩

/-! ### A document that is digested twice -/

section Sample

/-- Every job is an execution of the one digestion of the sample. -/
def sampleLibrary : Library Nat where
  job _ := some ⟨true, false, 0, 1000, some [sampleDocument.source, sampleDocument.source]⟩
  digest _ := some includingDigest
  plan _ := some (legacyPlan keep)
  coverage _ := some includingDigest.coverage
  artifact _ := some sampleArtifact
  inspect _ _ := some ()
  rebuilt _ := some includingDigest

def sampleAccepted (jobId : Nat) : Accepted Nat :=
  ⟨⟨retrievedDocument, jobId, sampleDocument.source⟩, sampleArtifact, includingDigest, legacyPlan keep⟩

theorem sample_accepted (jobId : Nat) :
    accepted retrievalIds sampleLibrary sampleScope jobId = .ok (sampleAccepted jobId) := by
  have haccept : accept retrievalIds sampleLibrary sampleScope jobId = some (sampleAccepted jobId) := by
    unfold accept
    simp [sampleLibrary, loadDigest, within, includingDigest, sampleDocument, limit]
    rfl
  unfold accepted
  rw [haccept]

/-- A publication of one document with records of its own is valid under its identity. -/
theorem manifestValues_single {draft : PublicationManifest U} {d : AcceptedDocument U}
    (hdocs : draft.documents = [d])
    (hscopes : d.scope = draft.scope ∧ d.extraction.scope = draft.scope ∧ d.digest.scope = draft.scope)
    (hprofile : encoder.profile = draft.profile)
    (hcarry : ∀ r ∈ draft.records, Carries ids encoder d.toAcceptedDocument r)
    (hne : draft.records ≠ []) (hnodup : (draft.records.map fun r => r.recordId).Nodup) :
    manifestValues ids draft = .ok { draft with generation := draft.identity ids } := by
  have hids : ∀ u ∈ draft.records.map fun r => r.documentId, u = d.documentId := by
    intro u hu
    obtain ⟨r, hr, rfl⟩ := List.mem_map.mp hu
    exact (hcarry r hr).documentId
  have hmem : d.documentId ∈ draft.records.map fun r => r.documentId := by
    obtain ⟨r, hr⟩ := List.exists_mem_of_ne_nil _ hne
    exact List.mem_map.mpr ⟨r, hr, (hcarry r hr).documentId⟩
  have hidentity : ({ draft with generation := draft.identity ids } : PublicationManifest U).identity ids
      = draft.identity ids := Alike.identity ⟨rfl, rfl, rfl, rfl, rfl, rfl⟩
  unfold manifestValues
  dsimp only
  rw [if_pos]
  unfold PublicationManifest.valid
  rw [hidentity]
  have hdict : Dict.ofList (draft.documents.map fun d => (d.documentId, d.toAcceptedDocument))
      = [(d.documentId, d.toAcceptedDocument)] := by
    rw [hdocs]
    rfl
  dsimp only
  rw [hdict]
  simp only [hdocs, List.length_singleton, List.map_singleton, Bool.and_eq_true, beq_iff_eq,
    List.all_eq_true, List.forall_mem_singleton, decide_eq_true_eq]
  refine ⟨⟨⟨⟨⟨trivial, trivial⟩, ?_⟩, ⟨hscopes.1, hscopes.2.1⟩, hscopes.2.2⟩, fun r hr => ?_⟩, ?_⟩
  · rw [List.dedup_eq_self.mpr hnodup, List.length_map]
  · have h := hcarry r hr
    have hget : Dict.get? [(d.documentId, d.toAcceptedDocument)] r.documentId
        = some d.toAcceptedDocument := by
      rw [h.documentId]
      have hkeys : (([(d.documentId, d.toAcceptedDocument)] : Dict U _).map Prod.fst).Nodup :=
        List.nodup_singleton _
      exact Dict.get?_of_mem hkeys (List.mem_singleton_self _)
    rw [hget]
    simp only [Bool.and_eq_true, beq_iff_eq, decide_eq_true_eq]
    refine ⟨⟨⟨h.scope.trans hscopes.1, ?_⟩, h.version⟩, h.extraction⟩
    rw [h.profile, hprofile]
  · unfold sameSet
    simp only [Bool.and_eq_true, List.all_eq_true, List.contains_iff_mem, List.mem_singleton]
    exact ⟨fun _ hu => hu ▸ hmem, hids⟩

/-- The job is run once. -/
theorem sample_first : Collection retrievalIds sampleLibrary sampleScope [1] [sampleAccepted 1] :=
  ⟨.cons (sample_accepted 1) .nil, List.nodup_singleton _⟩

/-- The job is run again, and asked for twice. -/
theorem sample_second : Collection retrievalIds sampleLibrary sampleScope [2, 2] [sampleAccepted 2] :=
  ⟨.cons (sample_accepted 2) .nil, List.nodup_singleton _⟩

theorem sample_planned : ∃ m, planPublication retrievalIds sampleLibrary sampleScope [1] ⟨none, 0⟩
    sampleEncoder none = .ok m := by
  have hvalid : sampleArtifact.valid retrievalIds = true := table_valid smallCut_keep
  obtain ⟨rows, hrows⟩ := sample_records
  obtain ⟨hreturned, -, -⟩ := (records_partition (tableIds_collisionFree _ _)).2 retrievedDocument
    sampleArtifact includingDigest (legacyPlan keep) sampleEncoder hvalid
  obtain ⟨htext, hnodup, -⟩ := hreturned rows hrows
  have hrows' : (content (sampleAccepted 1)).records retrievalIds sampleEncoder = .ok rows := hrows
  have heq : (content (sampleAccepted 1)).rows retrievalIds sampleEncoder = rows := by
    unfold Content.rows
    rw [hrows']
  have hcarry : ∀ r ∈ rows, Carries retrievalIds sampleEncoder retrievedDocument r := by
    have hall : ∀ r ∈ (content (sampleAccepted 1)).rows retrievalIds sampleEncoder,
        Carries retrievalIds sampleEncoder retrievedDocument r := rows_carry _
    rwa [heq] at hall
  have hne : rows ≠ [] := by
    rintro rfl
    cases htext
  have hsorted : (plannedDraft retrievalIds sampleScope ⟨none, 0⟩ sampleEncoder none
      [sampleAccepted 1]).records.Perm rows := by
    refine (List.perm_insertionSort _ _).trans ?_
    rw [List.map_singleton, List.flatMap_singleton, heq]
  have hrecords : ∀ c ∈ [sampleAccepted 1].map content, c.records retrievalIds sampleEncoder
      = .ok (c.rows retrievalIds sampleEncoder) := by
    rw [List.map_singleton, List.forall_mem_singleton, heq, hrows']
  have hdocs : (plannedDraft retrievalIds sampleScope ⟨none, 0⟩ sampleEncoder none
      [sampleAccepted 1]).documents = [(sampleAccepted 1).document] := rfl
  have hprofile : sampleEncoder.profile = (plannedDraft retrievalIds sampleScope ⟨none, 0⟩ sampleEncoder
      none [sampleAccepted 1]).profile := rfl
  have hmanifest := manifestValues_single hdocs ⟨rfl, rfl, rfl⟩ hprofile
    (fun r hr => hcarry r (hsorted.mem_iff.mp hr)) (fun h => hne (List.nil_perm.mp (h ▸ hsorted)))
    ((hsorted.map _).nodup_iff.mpr hnodup)
  exact ⟨_, (planPublication_eq_ok sample_first).mpr ⟨hrecords, hmanifest⟩⟩

/-- Another run of the job leads to the same generation and the same records. -/
theorem plan_identity_sample : ∃ m n,
    planPublication retrievalIds sampleLibrary sampleScope [1] ⟨none, 0⟩ sampleEncoder none = .ok m ∧
    planPublication retrievalIds sampleLibrary sampleScope [2, 2] ⟨none, 0⟩ sampleEncoder none = .ok n ∧
      m.generation = n.generation ∧ m.records = n.records := by
  obtain ⟨m, hm⟩ := sample_planned
  obtain ⟨hiff, hequal⟩ := @plan_identity Nat retrievalIds sampleLibrary sampleScope _ sampleEncoder
    ⟨none, 0⟩ none uuidText_injective _ _ _ _ sample_first sample_second fun _ => Iff.rfl
  obtain ⟨n, hn⟩ := hiff.mp ⟨m, hm⟩
  obtain ⟨hgeneration, hrecords, -⟩ := hequal m n hm hn
  exact ⟨m, n, hm, hn, hgeneration, hrecords⟩

end Sample

end Polymind.Publication.Planning
