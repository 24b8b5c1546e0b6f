import Polymind.Publication.Loading
import Polymind.Publication.Equiv.Containment

/-!
# Sparse isolation

An authorized request ranks each selected document under an index of its own, but addresses records
by their positions in the whole corpus.  `ownRanking` is the ranking made of the records of the
selected documents alone; `sparseHits_loaded` says that a pin on a loaded replica has just those hits,
so no position, tie or cut depends on another document.
-/

namespace Polymind.Publication

open Documents Digestion

variable {U F : Type} [DecidableEq U]

/-! ### Positions -/

section Positions

variable {α : Type}

/-- What stands at the positions of the entries with a property. -/
theorem getElem?_filter_zipIdx (p : α → Bool) (l : List α) :
    ((l.zipIdx.filter fun q => p q.1).map Prod.snd).map (fun i => l[i]?) = (l.filter p).map some := by
  have hfilter : (l.zipIdx.filter fun q => p q.1).map Prod.fst = l.filter p := by
    conv_rhs => rw [← List.zipIdx_map_fst 0 l, List.filter_map]
    rfl
  rw [← hfilter, List.map_map, List.map_map]
  apply List.map_congr_left
  intro q hq
  exact List.mem_zipIdx_iff_getElem?.mp (List.mem_of_mem_filter hq)

end Positions

/-- The records of a document, in the order of the manifest. -/
def recordsOf (manifest : PublicationManifest U) (doc : U) : List (RetrievalRecord U) :=
  manifest.records.filter fun r => r.documentId = doc

theorem positions_records (manifest : PublicationManifest U) (doc : U) :
    (positions manifest doc).map (fun i => manifest.records[i]?) = (recordsOf manifest doc).map some :=
  getElem?_filter_zipIdx (fun r : RetrievalRecord U => decide (r.documentId = doc)) manifest.records

theorem getElem?_positions (manifest : PublicationManifest U) (doc : U) (k : Nat) :
    ((positions manifest doc)[k]?).map (fun i => manifest.records[i]?)
      = ((recordsOf manifest doc)[k]?).map some := by
  rw [← List.getElem?_map, positions_records, List.getElem?_map]

variable {bm25 : Bm25 F}

/-- The tokens of a document's records. -/
def ownTokens (bm25 : Bm25 F) (records : List (RetrievalRecord U)) : List (List Str) :=
  records.map fun r => bm25.tokenize r.text

theorem isolate_eq (manifest : PublicationManifest U) (doc : U) : isolate bm25 manifest doc
    = (bm25.index (ownTokens bm25 (recordsOf manifest doc))).map fun i => (positions manifest doc, i) := by
  have htokens : ((positions manifest doc).map fun i =>
      (manifest.records.map fun r => bm25.tokenize r.text)[i]?.getD [])
        = ownTokens bm25 (recordsOf manifest doc) := by
    have hmap := congrArg (List.map fun o : Option (RetrievalRecord U) =>
      (o.map fun r => bm25.tokenize r.text).getD []) (positions_records manifest doc)
    simpa only [ownTokens, List.map_map, Function.comp_def, List.getElem?_map, Option.map_some,
      Option.getD_some] using hmap
  unfold isolate
  dsimp only
  rw [htokens]
  cases bm25.index (ownTokens bm25 (recordsOf manifest doc)) <;> rfl

/-! ### The scores of one document -/

variable {manifest : PublicationManifest U} {query : Str}

/-- The record at a place, with its score. -/
def scored (records : List (RetrievalRecord U)) (p : F × Nat) :
    Except Failure (RetrievalRecord U × F) :=
  match records[p.2]? with
  | some record => .ok (record, p.1)
  | none => .error .other

/-- The entry of `recordsAt` at one position. -/
def recordAt (manifest : PublicationManifest U) (p : Nat × F) :
    Except Failure (RetrievalRecord U × F) :=
  match manifest.records[p.1]? with
  | some record => .ok (record, p.2)
  | none => .error .other

omit [DecidableEq U] in
theorem recordsAt_eq (ranked : List (Nat × F)) :
    recordsAt manifest ranked = ranked.mapM (recordAt manifest) := rfl

/-- The position of an entry of the document's own index. -/
def positionAt (manifest : PublicationManifest U) (doc : U) (p : F × Nat) : Except Failure (Nat × F) :=
  match (positions manifest doc)[p.2]? with
  | some i => .ok (i, p.1)
  | none => .error .other

theorem recordAt_positionAt {doc : U} {p : F × Nat} {q : Nat × F}
    (h : positionAt manifest doc p = .ok q) : ∃ r, recordAt manifest q = .ok r := by
  have hpositions := getElem?_positions manifest doc p.2
  unfold positionAt at h
  split at h
  · rename_i i hi
    obtain rfl := Except.ok.inj h
    rw [hi, Option.map_some] at hpositions
    cases hr : (recordsOf manifest doc)[p.2]? with
    | none =>
      rw [hr] at hpositions
      cases hpositions
    | some record =>
      rw [hr, Option.map_some] at hpositions
      refine ⟨(record, p.1), ?_⟩
      unfold recordAt
      rw [Option.some.inj hpositions]
  · cases h

/-- Through the positions, the entry of a document's index is the document's own record. -/
theorem positionAt_bind (doc : U) (p : F × Nat) :
    (positionAt manifest doc p >>= recordAt manifest) = scored (recordsOf manifest doc) p := by
  have hpositions := getElem?_positions manifest doc p.2
  unfold positionAt scored
  cases hi : (positions manifest doc)[p.2]? with
  | none =>
    rw [hi] at hpositions
    cases hr : (recordsOf manifest doc)[p.2]? with
    | none => rfl
    | some record =>
      rw [hr] at hpositions
      cases hpositions
  | some i =>
    rw [hi, Option.map_some] at hpositions
    cases hr : (recordsOf manifest doc)[p.2]? with
    | none =>
      rw [hr] at hpositions
      cases hpositions
    | some record =>
      rw [hr, Option.map_some] at hpositions
      show recordAt manifest (i, p.1) = .ok (record, p.1)
      unfold recordAt
      rw [Option.some.inj hpositions]

/-- The entry of a document in a loaded replica. -/
def IsolatedFor (bm25 : Bm25 F) (manifest : PublicationManifest U) (doc : U) (isolated : Isolated F) :
    Prop :=
  isolated.1 = positions manifest doc ∧
    bm25.index (ownTokens bm25 (recordsOf manifest doc)) = .ok isolated.2

variable [Floats F]

/-- The records with a positive score under an index over them alone. -/
def ownScores (bm25 : Bm25 F) (query : Str) (records : List (RetrievalRecord U)) :
    Except Failure (List (RetrievalRecord U × F)) := do
  match ← bm25.index (ownTokens bm25 records) with
  | none => return []
  | some scorer =>
    let scores ← scorer query
    (scores.zipIdx.filter fun p => 0 < p.1).mapM (scored records)

theorem isolatedScores_eq {doc : U} {isolated : Isolated F}
    (h : IsolatedFor bm25 manifest doc isolated) :
    (isolatedScores query isolated >>= recordsAt manifest)
      = ownScores bm25 query (recordsOf manifest doc) := by
  obtain ⟨hpositions, hindex⟩ := h
  unfold isolatedScores ownScores
  rw [hindex, hpositions]
  cases isolated.2 with
  | none => rfl
  | some scorer =>
    cases hscores : scorer query with
    | error e => simp only [hscores, bind, Except.bind]
    | ok scores =>
      have hloop := mapM_bind_mapM (f := positionAt manifest doc) (g := recordAt manifest)
        (fun _ _ h => recordAt_positionAt h) (scores.zipIdx.filter fun p => 0 < p.1)
      simp only [positionAt_bind] at hloop
      simp only [hscores, bind, Except.bind]
      exact hloop

/-- The positions that a document's scores are at are positions of the corpus. -/
theorem recordsAt_isolatedScores {doc : U} {isolated : Isolated F}
    (h : IsolatedFor bm25 manifest doc isolated) {ranked : List (Nat × F)}
    (hranked : isolatedScores query isolated = .ok ranked) :
    ∃ found, recordsAt manifest ranked = .ok found := by
  unfold isolatedScores at hranked
  rw [h.1] at hranked
  split at hranked
  · obtain rfl := Except.ok.inj hranked
    exact ⟨[], rfl⟩
  · rw [bind_eq_ok] at hranked
    obtain ⟨scores, -, hranked⟩ := hranked
    have hforall : List.Forall₂ (fun p q => positionAt manifest doc p = .ok q) _ ranked :=
      mapM_eq_ok.mp hranked
    clear hranked
    generalize (scores.zipIdx.filter fun p => decide (0 < p.1)) = entries at hforall
    induction hforall with
    | nil => exact ⟨[], rfl⟩
    | @cons p q _ _ hpq _ ih =>
      obtain ⟨r, hr⟩ := recordAt_positionAt hpq
      obtain ⟨found, hfound⟩ := ih
      refine ⟨r :: found, ?_⟩
      rw [recordsAt_eq, mapM_eq_ok] at hfound ⊢
      exact .cons hr hfound

/-! ### The ranking -/

/-- One more document in the ranking. -/
def addScores (bm25 : Bm25 F) (query : Str) (records : U → List (RetrievalRecord U))
    (ranked : List (RetrievalRecord U × F)) (doc : U) :
    Except Failure (List (RetrievalRecord U × F)) := do
  return ranked ++ (← ownScores bm25 query (records doc))

/-- The ranking of the selected documents, each by its own records. -/
def ownRanking (ids : Ids U) (bm25 : Bm25 F) (query : Str) (topK : Nat) (documentIds : List U)
    (records : U → List (RetrievalRecord U)) : Except Failure (List (RetrievalRecord U × F)) := do
  let ranked ← documentIds.foldlM (addScores bm25 query records) []
  return (sortRanked ids ranked).take topK

omit [DecidableEq U] [Floats F] in
theorem recordsAt_append {a b : List (Nat × F)} {c d : List (RetrievalRecord U × F)}
    (ha : recordsAt manifest a = .ok c) (hb : recordsAt manifest b = .ok d) :
    recordsAt manifest (a ++ b) = .ok (c ++ d) := by
  rw [recordsAt_eq, mapM_eq_ok] at ha hb ⊢
  exact List.rel_append ha hb

/-- Every selected document has its entry. -/
def IndexedBy (bm25 : Bm25 F) (manifest : PublicationManifest U) (indexes : Dict U (Isolated F))
    (documentIds : List U) : Prop :=
  ∀ doc ∈ documentIds, ∃ isolated, indexes.get? doc = some isolated ∧
    IsolatedFor bm25 manifest doc isolated

/-- The body of the loop of `authorizedScores`. -/
def addIsolated (indexes : Dict U (Isolated F)) (query : Str) (ranked : List (Nat × F)) (doc : U) :
    Except Failure (List (Nat × F)) :=
  match indexes.get? doc with
  | none => .error .other
  | some isolated => do return ranked ++ (← isolatedScores query isolated)

/-- The loop over the documents, from a ranking whose positions are of the corpus. -/
theorem foldlM_addIsolated {indexes : Dict U (Isolated F)} {documentIds : List U}
    (hindexed : IndexedBy bm25 manifest indexes documentIds) {ranked : List (Nat × F)}
    {found : List (RetrievalRecord U × F)} (hfound : recordsAt manifest ranked = .ok found) :
    (documentIds.foldlM (addIsolated indexes query) ranked >>= recordsAt manifest)
      = documentIds.foldlM (addScores bm25 query (recordsOf manifest)) found := by
  induction documentIds generalizing ranked found with
  | nil => exact hfound
  | cons doc documentIds ih =>
    obtain ⟨isolated, hget, hisolated⟩ := hindexed doc (List.mem_cons_self ..)
    have hown : (isolatedScores query isolated >>= recordsAt manifest)
        = ownScores bm25 query (recordsOf manifest doc) := isolatedScores_eq hisolated
    rw [List.foldlM_cons, List.foldlM_cons, addIsolated, hget, addScores, ← hown]
    cases hnew : isolatedScores query isolated with
    | error e => simp only [hnew, bind, Except.bind]
    | ok new =>
      obtain ⟨more, hmore⟩ := recordsAt_isolatedScores hisolated hnew
      have hrest := ih (fun d hd => hindexed d (List.mem_cons_of_mem _ hd))
        (recordsAt_append hfound hmore)
      simp only [hnew, hmore, bind, Except.bind, pure, Except.pure] at hrest ⊢
      exact hrest

theorem sparseHits_eq {ids : Ids U} {pin : PinnedRequest U F} {topK : Nat}
    (hauthorized : pin.authorization.isSome = true)
    (hindexed : IndexedBy bm25 pin.snapshot.manifest pin.sparseIndexes pin.documentIds) :
    sparseHits ids query pin topK
      = (ownRanking ids bm25 query topK pin.documentIds (recordsOf pin.snapshot.manifest)).map
          fun ranked => ranked.map fun p => recordItem ids pin.snapshot.manifest p.1 p.2 := by
  have hloop : (authorizedScores query pin >>= recordsAt pin.snapshot.manifest)
      = pin.documentIds.foldlM (addScores bm25 query (recordsOf pin.snapshot.manifest)) [] :=
    foldlM_addIsolated hindexed rfl
  unfold sparseHits ownRanking
  rw [if_pos hauthorized, ← hloop]
  cases authorizedScores query pin with
  | error e => rfl
  | ok ranked =>
    cases hfound : recordsAt pin.snapshot.manifest ranked with
    | error e => simp only [hfound, bind, Except.bind, Except.map]
    | ok found => simp only [hfound, bind, Except.bind, Except.map, pure, Except.pure]

/-! ### Loaded replicas and their pins -/

omit [Floats F] in
/-- The loop of `load` over the documents. -/
theorem isolated_ok {documents : List (AcceptedDocument U)} {items : List (U × Isolated F)}
    (h : documents.mapM (fun d => do return (d.documentId, ← isolate bm25 manifest d.documentId))
      = Except.ok items) :
    items.map Prod.fst = documents.map AcceptedDocument.documentId ∧
      ∀ item ∈ items, IsolatedFor bm25 manifest item.1 item.2 := by
  rw [mapM_eq_ok] at h
  induction h with
  | nil => exact ⟨rfl, fun _ h => absurd h List.not_mem_nil⟩
  | @cons d item _ _ hitem _ ih =>
    rw [bind_eq_ok] at hitem
    obtain ⟨isolated, hisolated, hitem⟩ := hitem
    obtain rfl := Except.ok.inj hitem
    rw [isolate_eq, map_eq_ok] at hisolated
    obtain ⟨own, hown, rfl⟩ := hisolated
    constructor
    · rw [List.map_cons, List.map_cons, ih.1]
    · rw [List.forall_mem_cons]
      exact ⟨⟨rfl, hown⟩, ih.2⟩

omit [Floats F] in
/-- A replica keeps an index of its own for each document of its manifest. -/
theorem load_ok {ids : Ids U} {startup : Startup U} {replica loaded : PublicationReplica U F}
    (h : replica.load ids bm25 startup = .ok loaded) :
    ∃ snapshot, loaded.snapshot = some snapshot ∧ IndexedBy bm25 snapshot.manifest
      loaded.sparseIndexes (snapshot.manifest.documents.map AcceptedDocument.documentId) := by
  unfold PublicationReplica.load at h
  rw [bind_eq_ok] at h
  obtain ⟨active, -, h⟩ := h
  rw [ite_error_eq_ok, bind_eq_ok] at h
  obtain ⟨-, manifest, -, h⟩ := h
  rw [bind_eq_ok] at h
  obtain ⟨index, -, h⟩ := h
  rw [bind_eq_ok] at h
  obtain ⟨items, hitems, h⟩ := h
  rw [bind_eq_ok] at h
  obtain ⟨after, -, h⟩ := h
  rw [ite_error_eq_ok] at h
  obtain rfl := Except.ok.inj h.2
  obtain ⟨hkeys, hentries⟩ := isolated_ok hitems
  refine ⟨_, rfl, fun doc hdoc => ?_⟩
  rw [← hkeys] at hdoc
  obtain ⟨isolated, hget⟩ := Dict.get?_ofList_of_mem hdoc
  exact ⟨isolated, hget, hentries _ (Dict.mem_of_get?_ofList hget)⟩

omit [Floats F] in
/-- An authorized pin selects documents of the snapshot it was taken on. -/
theorem pin_authorized {ids : Ids U} {env : Environment U F} {replica : PublicationReplica U F}
    {documentIds : Option (List U)} {auth : Authorization U} {pin : PinnedRequest U F}
    (h : replica.pin ids env documentIds (some auth) = .ok pin) :
    replica.snapshot = some pin.snapshot ∧ pin.sparseIndexes = replica.sparseIndexes ∧
      pin.authorization = some auth ∧
      pin.documentIds ⊆ pin.snapshot.manifest.documents.map AcceptedDocument.documentId := by
  unfold PublicationReplica.pin at h
  rw [bind_eq_ok] at h
  obtain ⟨active, -, h⟩ := h
  split at h
  · rename_i snapshot generation hsnapshot
    rw [ite_error_eq_ok, bind_eq_ok] at h
    obtain ⟨-, -, -, h⟩ := h
    dsimp only at h
    rw [ite_error_eq_ok] at h
    obtain ⟨havailable, h⟩ := h
    obtain rfl := Except.ok.inj h
    refine ⟨hsnapshot, rfl, rfl, fun doc hdoc => ?_⟩
    rw [List.mem_insertionSort, List.mem_dedup] at hdoc
    cases documentIds with
    | none => exact hdoc
    | some selected =>
      simp only [Option.isSome_some, Bool.true_and, Bool.or_eq_true, Bool.not_eq_true',
        not_or, Bool.not_eq_false, List.all_eq_true] at havailable
      exact List.contains_iff_mem.mp (havailable.2 doc (List.mem_dedup.mpr hdoc))
  · cases h

/-- The hits of an authorized pin on a loaded replica. -/
theorem sparseHits_loaded {ids : Ids U} {startup : Startup U} {env : Environment U F}
    {replica loaded : PublicationReplica U F} {documentIds : Option (List U)}
    {auth : Authorization U} {pin : PinnedRequest U F} {topK : Nat}
    (hload : replica.load ids bm25 startup = .ok loaded)
    (hpin : loaded.pin ids env documentIds (some auth) = .ok pin) :
    sparseHits ids query pin topK
      = (ownRanking ids bm25 query topK pin.documentIds (recordsOf pin.snapshot.manifest)).map
          fun ranked => ranked.map fun p => recordItem ids pin.snapshot.manifest p.1 p.2 := by
  obtain ⟨snapshot, hsnapshot, hindexed⟩ := load_ok hload
  obtain ⟨hpinned, hindexes, hauth, havailable⟩ := pin_authorized hpin
  obtain rfl : snapshot = pin.snapshot := Option.some.inj (hsnapshot.symm.trans hpinned)
  apply sparseHits_eq
  · rw [hauth]
    rfl
  · rw [hindexes]
    exact fun doc hdoc => hindexed doc (havailable hdoc)

/-! ### Two replicas -/

omit [DecidableEq U] in
/-- The ranking reads the records of the selected documents and no other. -/
theorem ownRanking_congr {ids : Ids U} {topK : Nat} {documentIds : List U}
    {records₁ records₂ : U → List (RetrievalRecord U)}
    (h : ∀ doc ∈ documentIds, records₁ doc = records₂ doc) :
    ownRanking ids bm25 query topK documentIds records₁
      = ownRanking ids bm25 query topK documentIds records₂ := by
  unfold ownRanking
  congr 1
  apply foldlM_congr
  intro doc hdoc ranked
  rw [addScores, addScores, h doc hdoc]

omit [DecidableEq U] [Floats F] in
/-- Two manifests name the same record alike, except for their generation. -/
theorem recordItem_generation (ids : Ids U) (m₁ m₂ : PublicationManifest U)
    (record : RetrievalRecord U) (score : F) :
    recordItem ids m₁ record score = Dict.set (recordItem ids m₂ record score) "generation".toList
      (.str (ids.uuidStr m₁.generation)) := rfl

/-- **Authorized sparse ranking reveals nothing about other documents.**  Two replicas are loaded from
manifests that have the same records, in the same order, for each selected document.  Then the sparse
lists of authorized pins on these documents are one sequence of records with their scores, whatever
else the manifests hold; the hits differ in the generation they name alone. -/
theorem sparse_isolated (ids : Ids U) (bm25 : Bm25 F) {startup₁ startup₂ : Startup U}
    {env₁ env₂ : Environment U F} {replica₁ replica₂ loaded₁ loaded₂ : PublicationReplica U F}
    {documentIds₁ documentIds₂ : Option (List U)} {auth₁ auth₂ : Authorization U}
    {pin₁ pin₂ : PinnedRequest U F}
    (hload₁ : replica₁.load ids bm25 startup₁ = .ok loaded₁)
    (hload₂ : replica₂.load ids bm25 startup₂ = .ok loaded₂)
    (hpin₁ : loaded₁.pin ids env₁ documentIds₁ (some auth₁) = .ok pin₁)
    (hpin₂ : loaded₂.pin ids env₂ documentIds₂ (some auth₂) = .ok pin₂)
    (hselected : pin₁.documentIds = pin₂.documentIds)
    (hrecords : ∀ doc ∈ pin₁.documentIds,
      recordsOf pin₁.snapshot.manifest doc = recordsOf pin₂.snapshot.manifest doc)
    (query : Str) (topK : Nat) :
    (∃ ranked : Except Failure (List (RetrievalRecord U × F)),
      sparseHits ids query pin₁ topK
        = ranked.map (List.map fun p => recordItem ids pin₁.snapshot.manifest p.1 p.2) ∧
      sparseHits ids query pin₂ topK
        = ranked.map (List.map fun p => recordItem ids pin₂.snapshot.manifest p.1 p.2)) ∧
    ∀ (record : RetrievalRecord U) (score : F),
      recordItem ids pin₁.snapshot.manifest record score
        = Dict.set (recordItem ids pin₂.snapshot.manifest record score) "generation".toList
            (.str (ids.uuidStr pin₁.snapshot.manifest.generation)) := by
  constructor
  · refine ⟨ownRanking ids bm25 query topK pin₁.documentIds (recordsOf pin₁.snapshot.manifest),
      sparseHits_loaded hload₁ hpin₁, ?_⟩
    rw [ownRanking_congr hrecords, hselected]
    exact sparseHits_loaded hload₂ hpin₂
  · exact recordItem_generation ids pin₁.snapshot.manifest pin₂.snapshot.manifest

/-! ### Two replicas that share a document -/

section Sample

/-- A record of some text, with the evidence of the sample. -/
def sharedRecord (recordId documentId : Nat) (text : String) : RetrievalRecord Nat :=
  { sampleRecord with recordId := recordId, documentId := documentId, text := text.toList }

def sharedDocument (documentId : Nat) : AcceptedDocument Nat :=
  ⟨sampleScope, documentId, 2, 3, sampleDocument.source⟩

/-- Two records of document 5. -/
def aloneManifest : PublicationManifest Nat :=
  ⟨21, sampleScope, [sharedDocument 5], [sharedRecord 30 5 "beta", sharedRecord 31 5 "the alpha"]⟩

/-- The same records among one of document 6, which matches the question better. -/
def mixedManifest : PublicationManifest Nat :=
  ⟨22, sampleScope, [sharedDocument 6, sharedDocument 5],
    [sharedRecord 30 5 "beta", sharedRecord 32 6 "alpha alpha", sharedRecord 31 5 "the alpha"]⟩

/-- An index that counts the tokens of the question. -/
def countingBm25 : Bm25 Int where
  lower text := text.map Char.toLower
  isWord c := c.isAlphanum || c == '_'
  build tokens := .ok fun query => .ok (tokens.map fun t => ((t.filter query.contains).length : Int))

def startupOf (manifest : PublicationManifest Nat) : Startup Nat where
  active := .ok ⟨some manifest.generation, 1⟩
  activeAfter := .ok ⟨some manifest.generation, 1⟩
  validate _ := .ok manifest

def emptyReplica (manifest : PublicationManifest Nat) : PublicationReplica Nat Int :=
  ⟨bareIds.uuidStr manifest.generation, none, []⟩

def environmentOf (manifest : PublicationManifest Nat) : Environment Nat Int :=
  { sampleEnvironment with active := .ok (some manifest.generation) }

def sharedAuthorization : Authorization Nat := ⟨[(5, sampleScope)]⟩

/-- The pin on document 5 of a loaded replica of the manifest. -/
def pinnedOn (manifest : PublicationManifest Nat) : Except Failure (PinnedRequest Nat Int) := do
  let loaded ← (emptyReplica manifest).load bareIds countingBm25 (startupOf manifest)
  loaded.pin bareIds (environmentOf manifest) (some [5]) (some sharedAuthorization)

/-- Cut at one hit, both replicas find the second record of document 5 for the question. -/
theorem sparse_isolated_sample : ∃ pin₁ pin₂ : PinnedRequest Nat Int,
    pinnedOn aloneManifest = .ok pin₁ ∧ pinnedOn mixedManifest = .ok pin₂ ∧
      (sparseHits bareIds "Alpha?".toList pin₂ 1).map List.length = .ok 1 ∧
      ∃ ranked : Except Failure (List (RetrievalRecord Nat × Int)),
        sparseHits bareIds "Alpha?".toList pin₁ 1
          = ranked.map (List.map fun p => recordItem bareIds aloneManifest p.1 p.2) ∧
        sparseHits bareIds "Alpha?".toList pin₂ 1
          = ranked.map (List.map fun p => recordItem bareIds mixedManifest p.1 p.2) := by
  have hsame : ∀ doc ∈ [5], recordsOf aloneManifest doc = recordsOf mixedManifest doc := by
    intro doc hdoc
    rw [List.mem_singleton.mp hdoc]
    rfl
  obtain ⟨loaded₁, pin₁, hload₁, hpin₁, hon₁, hmanifest₁, hdocs₁⟩ : ∃ loaded₁ pin₁,
      (emptyReplica aloneManifest).load bareIds countingBm25 (startupOf aloneManifest) = .ok loaded₁ ∧
      loaded₁.pin bareIds (environmentOf aloneManifest) (some [5]) (some sharedAuthorization) = .ok pin₁ ∧
      pinnedOn aloneManifest = .ok pin₁ ∧ pin₁.snapshot.manifest = aloneManifest ∧
      pin₁.documentIds = [5] := ⟨_, _, rfl, rfl, rfl, rfl, rfl⟩
  obtain ⟨loaded₂, pin₂, hload₂, hpin₂, hon₂, hmanifest₂, hdocs₂, hlength⟩ : ∃ loaded₂ pin₂,
      (emptyReplica mixedManifest).load bareIds countingBm25 (startupOf mixedManifest) = .ok loaded₂ ∧
      loaded₂.pin bareIds (environmentOf mixedManifest) (some [5]) (some sharedAuthorization) = .ok pin₂ ∧
      pinnedOn mixedManifest = .ok pin₂ ∧ pin₂.snapshot.manifest = mixedManifest ∧
      pin₂.documentIds = [5] ∧ (sparseHits bareIds "Alpha?".toList pin₂ 1).map List.length = .ok 1 :=
    ⟨_, _, rfl, rfl, rfl, rfl, rfl, rfl⟩
  refine ⟨pin₁, pin₂, hon₁, hon₂, hlength, ?_⟩
  have hisolated := sparse_isolated bareIds countingBm25 hload₁ hload₂ hpin₁ hpin₂
    (hdocs₁.trans hdocs₂.symm) (by rwa [hmanifest₁, hmanifest₂, hdocs₁]) "Alpha?".toList 1
  rw [hmanifest₁, hmanifest₂] at hisolated
  exact hisolated.1

end Sample

end Polymind.Publication
