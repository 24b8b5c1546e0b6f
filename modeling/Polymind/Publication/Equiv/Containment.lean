import Polymind.Publication.Analysis
import Polymind.Digestion.Equiv.Resolution
import Mathlib.Data.List.Dedup

/-!
# Hits and citations are contained

The vector store, the reranker and the provider are arbitrary functions of the environment.  Each
joint checks what it is handed against the pinned manifest:

* `checkRanked_ok`: what the reranker returned names distinct records of the manifest;
* `citations_ok`: every hit is cited once, by a slice of a text unit of its document;
* `selectCitations_ok`: the provider's answer names some of the citations, none twice;
* `citations_contained`: so the hits of a request and the citations of an analysis are contained.
-/

namespace Polymind.Publication

open Json Documents Digestion

variable {U F : Type} {ids : Ids U} {manifest : PublicationManifest U}

/-! ### Records and items -/

/-- The hit is a record of the manifest, of a selected document, with its text and its metadata. -/
structure FromRecord (ids : Ids U) (manifest : PublicationManifest U) (documentIds : List U)
    (item : Item F) (record : RetrievalRecord U) : Prop where
  mem : record ∈ manifest.records
  selected : record.documentId ∈ documentIds
  recordId : item.get "record_id" = .str (ids.uuidStr record.recordId)
  text : item.get "text" = .str record.text
  metadata : ∀ m ∈ vectorMetadata ids manifest record, Dict.get? item m.1 = some (.str m.2)

theorem Value.isStr_iff {v : Value F} {s : Str} : v.isStr s = true ↔ v = .str s := by
  cases v <;> simp [Value.isStr]

/-- Only the id of a record of the manifest finds a record. -/
theorem recordOf_eq_some {v : Value F} {record : RetrievalRecord U}
    (h : recordOf ids manifest v = some record) :
    record ∈ manifest.records ∧ v = .str (ids.uuidStr record.recordId) := by
  cases v with
  | str s =>
    obtain ⟨r, hr, heq⟩ := List.mem_map.mp (Dict.mem_of_get?_ofList h)
    obtain ⟨rfl, rfl⟩ := Prod.mk.inj heq
    exact ⟨hr, rfl⟩
  | none => cases h
  | number x => cases h
  | list items => cases h
  | dict entries => cases h

variable [DecidableEq U] {pin : PinnedRequest U F}

theorem vouched_iff {item : Item F} (h : vouched ids pin item = true) :
    ∃ record, FromRecord ids pin.snapshot.manifest pin.documentIds item record := by
  unfold vouched at h
  split at h
  · cases h
  · rename_i record hrecord
    obtain ⟨hmem, hid⟩ := recordOf_eq_some hrecord
    simp only [Bool.and_eq_true, decide_eq_true_eq, List.all_eq_true, Value.isStr_iff] at h
    refine ⟨record, hmem, h.1.1, hid, h.1.2, fun m hm => ?_⟩
    have hget := h.2 m hm
    cases hv : Dict.get? item m.1 with
    | none =>
      rw [hv] at hget
      cases hget
    | some v =>
      rw [hv] at hget
      exact congrArg some hget

/-! ### Hits -/

section Hits

variable [Floats F]

/-- The hits of a request, whatever the reranker returned. -/
structure Hits (ids : Ids U) (pin : PinnedRequest U F) (topK : Nat) (hits : List (Item F)) : Prop where
  length_le : hits.length ≤ topK
  nodup : (hits.map fun item => item.get "record_id").Nodup
  records : ∀ item ∈ hits, ∃ record,
    FromRecord ids pin.snapshot.manifest pin.documentIds item record

theorem Value.same_self (s : Str) : (Value.str s : Value F).same (.str s) = true := by
  simp [Value.same]

theorem checkRanked_ok {fused hits : List (Item F)} {topK : Nat} {result : Value F}
    (h : checkRanked ids pin fused topK result = .ok hits) : Hits ids pin topK hits := by
  unfold checkRanked at h
  rw [bind_eq_ok] at h
  obtain ⟨elements, -, h⟩ := h
  rw [ite_error_eq_ok, bind_eq_ok] at h
  obtain ⟨hlength, items, hitems, h⟩ := h
  dsimp only at h
  rw [ite_error_eq_ok, ite_error_eq_ok, ite_error_eq_ok] at h
  obtain ⟨-, hkeys, hvouched, h⟩ := h
  obtain rfl := Except.ok.inj h
  have hrecords : ∀ item ∈ items, ∃ record,
      FromRecord ids pin.snapshot.manifest pin.documentIds item record := by
    intro item hitem
    apply vouched_iff
    simp only [Bool.not_eq_true', Bool.not_eq_false, List.all_eq_true] at hvouched
    exact hvouched item hitem
  refine ⟨?_, ?_, hrecords⟩
  · rw [← (mapM_eq_ok.mp hitems).length_eq]
    exact Nat.le_of_not_lt hlength
  · -- the keys are strings, on which `same` is equality
    simp only [Bool.or_eq_true, decide_eq_true_eq, not_or, not_not] at hkeys
    refine hkeys.1.imp_of_mem fun {a b} ha _ hne => ?_
    rintro rfl
    obtain ⟨item, hitem, rfl⟩ := List.mem_map.mp ha
    obtain ⟨record, hrecord⟩ := hrecords item hitem
    rw [hrecord.recordId, Value.same_self] at hne
    cases hne

variable {env : Environment U F}

theorem retrieve_ok {query : Str} {topK : Nat} {hits : List (Item F)}
    (h : retrieve ids env query pin topK = .ok hits) : Hits ids pin topK hits := by
  have hnil : Hits ids pin topK [] :=
    ⟨Nat.zero_le _, List.nodup_nil, fun item hitem => absurd hitem List.not_mem_nil⟩
  unfold retrieve at h
  split at h
  · obtain rfl := Except.ok.inj h
    exact hnil
  · rw [ite_error_eq_ok, bind_eq_ok] at h
    obtain ⟨-, -, -, h⟩ := h
    dsimp only at h
    rw [bind_eq_ok] at h
    obtain ⟨matched, -, h⟩ := h
    rw [bind_eq_ok] at h
    obtain ⟨dense, -, h⟩ := h
    rw [bind_eq_ok] at h
    obtain ⟨sparse, -, h⟩ := h
    rw [bind_eq_ok] at h
    obtain ⟨fused, -, h⟩ := h
    split at h
    · obtain rfl := Except.ok.inj h
      exact hnil
    · rw [bind_eq_ok] at h
      obtain ⟨result, -, h⟩ := h
      exact checkRanked_ok h

end Hits

/-! ### Citations -/

/-- The citation is of a hit and of its record, and its excerpt is the slice of a text unit of the
document, at the span it names. -/
structure Cites (ids : Ids U) (env : Environment U F) (pin : PinnedRequest U F) (item : Item F)
    (c : Citation U) : Prop where
  generation : c.generation = pin.snapshot.manifest.generation
  selected : c.documentId ∈ pin.documentIds
  recordId : item.get "record_id" = .str (ids.uuidStr c.recordId)
  source : ∃ record ∈ pin.snapshot.manifest.records, ∃ d ∈ pin.snapshot.manifest.documents,
    ∃ artifact, ∃ unit ∈ artifact.units, ∃ block ∈ unit.blocks,
      record.recordId = c.recordId ∧ record.documentId = c.documentId ∧ record.evidence.span = c.span
      ∧ d.documentId = c.documentId ∧ d.extractionId = c.extractionId
      ∧ env.readArtifact d.scope d.extraction = .ok artifact
      ∧ artifact.extractionId = c.extractionId ∧ artifact.document.documentId = c.documentId
      ∧ unit.sourceId = record.evidence.sourceId ∧ block.blockId = record.evidence.blockId
      ∧ unit.physicalPage = c.physicalPage ∧ block.span.contains c.span = true
      ∧ c.excerpt = Text.slice unit.text c.span.start c.span.stop
      ∧ c.excerpt = record.text

/-- The artifact was read for the document and is of its extraction. -/
structure Loaded (env : Environment U F) (d : AcceptedDocument U) (artifact : ExtractionArtifact U) :
    Prop where
  read : env.readArtifact d.scope d.extraction = .ok artifact
  extractionId : artifact.extractionId = d.extractionId
  documentId : artifact.document.documentId = d.documentId

/-- `docs`. -/
def documentsById (manifest : PublicationManifest U) : Dict U (AcceptedDocument U) :=
  Dict.ofList (manifest.documents.map fun d => (d.documentId, d))

/-- Every index is of the document it is kept for. -/
def Indexed (env : Environment U F) (manifest : PublicationManifest U)
    (indexes : Dict U (ExtractionArtifact U)) : Prop :=
  ∀ key artifact, indexes.get? key = some artifact →
    ∃ d, (documentsById manifest).get? key = some d ∧ Loaded env d artifact

variable {env : Environment U F}

theorem documentsById_eq_some {key : U} {d : AcceptedDocument U}
    (h : (documentsById manifest).get? key = some d) : d ∈ manifest.documents ∧ d.documentId = key := by
  obtain ⟨e, he, heq⟩ := List.mem_map.mp (Dict.mem_of_get?_ofList h)
  obtain ⟨rfl, rfl⟩ := Prod.mk.inj heq
  exact ⟨he, rfl⟩

theorem loadIndex_ok {indexes loaded : Dict U (ExtractionArtifact U)} {d : AcceptedDocument U}
    (hindexed : Indexed env manifest indexes)
    (hd : (documentsById manifest).get? d.documentId = some d)
    (h : loadIndex env indexes d = .ok loaded) : Indexed env manifest loaded := by
  unfold loadIndex at h
  split at h
  · obtain rfl := Except.ok.inj h
    exact hindexed
  · rw [bind_eq_ok] at h
    obtain ⟨artifact, hread, h⟩ := h
    rw [ite_error_eq_ok, bind_eq_ok] at h
    obtain ⟨hchecked, -, -, h⟩ := h
    simp only [ne_eq, Bool.or_eq_true, decide_eq_true_eq, not_or, not_not] at hchecked
    obtain rfl := Except.ok.inj h
    intro key other hget
    rw [Dict.get?_set] at hget
    split at hget
    · rename_i hkey
      obtain rfl := Option.some.inj hget
      rw [hkey]
      exact ⟨d, hd, hread, hchecked.1, hchecked.2⟩
    · exact hindexed key other hget

/-- A citation is built from the evidence of its record alone. -/
theorem cite_ok {record : RetrievalRecord U} {d : AcceptedDocument U}
    {artifact : ExtractionArtifact U} {count : Nat} {c : Citation U}
    (h : cite manifest record d artifact count = .ok c) : c.excerpt = record.text ∧
      ∃ unit block, Found artifact record.evidence unit block c.excerpt ∧
        c = ⟨citationLabel (count + 1), manifest.generation, record.recordId, d.documentId,
          d.documentVersionId, d.extractionId, artifact.document.displayFilename, unit.physicalPage,
          record.evidence.span, record.structuralPath, c.excerpt⟩ := by
  unfold cite at h
  split at h
  · rename_i excerpt unit block hresolve hget
    rw [ite_error_eq_ok, ite_error_eq_ok] at h
    obtain ⟨htext, -, h⟩ := h
    obtain rfl := Except.ok.inj h
    obtain ⟨unit', block', hfound⟩ := resolve_found hresolve
    rw [hfound.indexed] at hget
    obtain ⟨rfl, rfl⟩ := Prod.mk.inj (Option.some.inj hget)
    exact ⟨not_not.mp htext, unit', block', hfound, rfl⟩
  · cases h

/-- One iteration cites its item and numbers the citation. -/
theorem citeItem_ok {state next : Cited U} {item : Item F}
    (hindexed : Indexed env pin.snapshot.manifest state.indexes)
    (h : citeItem ids env pin state item = .ok next) :
    Indexed env pin.snapshot.manifest next.indexes ∧ ∃ c, next.citations = state.citations ++ [c] ∧
      c.citationId = citationLabel (state.citations.length + 1) ∧ Cites ids env pin item c := by
  unfold citeItem at h
  dsimp only at h
  split at h
  · cases h
  · rename_i record hrecord
    obtain ⟨hmem, hid⟩ := recordOf_eq_some hrecord
    rw [ite_error_eq_ok] at h
    obtain ⟨hchecked, h⟩ := h
    simp only [Bool.or_eq_true, decide_eq_true_eq, not_or, not_not] at hchecked
    split at h
    · cases h
    · rename_i d hd
      obtain ⟨hdmem, hdid⟩ := documentsById_eq_some hd
      rw [bind_eq_ok] at h
      obtain ⟨indexes, hload, h⟩ := h
      have hloaded := loadIndex_ok hindexed (hdid.symm ▸ hd) hload
      split at h
      · cases h
      · rename_i artifact hartifact
        rw [bind_eq_ok] at h
        obtain ⟨c, hcite, h⟩ := h
        obtain rfl := Except.ok.inj h
        obtain ⟨htext, unit, block, hfound, hc⟩ := cite_ok hcite
        obtain ⟨other, hother, hread⟩ := hloaded _ _ hartifact
        -- the document found under its own id is the document itself
        obtain rfl : d = other := by
          have hsame := hother
          rw [hdid] at hsame
          exact Option.some.inj (hd.symm.trans hsame)
        obtain ⟨hin, hblockId⟩ := mem_of_blockIndex hfound.indexed
        obtain ⟨hunit, hblock⟩ := mem_inventory.mp hin
        refine ⟨hloaded, c, rfl, by rw [hc], by rw [hc], ?_, by rw [hc]; exact hid, ?_⟩
        · rw [hc]
          exact hdid.symm ▸ hchecked.1.1
        · refine ⟨record, hmem, d, hdmem, artifact, unit, hunit, block, hblock, ?_⟩
          have hspan : c.span = record.evidence.span := by rw [hc]
          have hdocument : c.documentId = d.documentId := by rw [hc]
          have hextraction : c.extractionId = d.extractionId := by rw [hc]
          rw [hspan, hdocument, hextraction]
          exact ⟨by rw [hc], hdid.symm, rfl, rfl, rfl, hread.read, hread.extractionId,
            hread.documentId, hfound.sourceId, hblockId, by rw [hc], hfound.inside, hfound.text, htext⟩

/-- Every hit is cited once, in order, and the citations are numbered from 1. -/
theorem citations_ok {hits : List (Item F)} {cited : List (Citation U)}
    (h : citations ids env pin hits = .ok cited) : List.Forall₂ (Cites ids env pin) hits cited ∧
      cited.map Citation.citationId = (List.range cited.length).map fun n => citationLabel (n + 1) := by
  unfold citations at h
  rw [bind_eq_ok] at h
  obtain ⟨-, -, h⟩ := h
  split at h
  · rename_i state hloop
    obtain rfl := Except.ok.inj h
    have hempty : Indexed env pin.snapshot.manifest [] := by
      intro key artifact hget
      cases hget
    have hinvariant := foldlM_ok_prefix (fun done state =>
      Indexed env pin.snapshot.manifest state.indexes
        ∧ List.Forall₂ (Cites ids env pin) done state.citations
        ∧ state.citations.map Citation.citationId
          = (List.range state.citations.length).map fun n => citationLabel (n + 1)) hloop
      ⟨hempty, .nil, rfl⟩ ?_
    · exact hinvariant.2
    · intro done item state next _ hstate hstep
      obtain ⟨hindexed, hforall, hlabels⟩ := hstate
      obtain ⟨hindexed', c, hnext, hlabel, hcites⟩ := citeItem_ok hindexed hstep
      rw [hnext]
      refine ⟨hindexed', List.rel_append hforall (.cons hcites .nil), ?_⟩
      rw [List.map_append, hlabels, List.length_append, List.length_singleton, List.range_succ,
        List.map_append, List.map_singleton, List.map_singleton, hlabel]
  · cases h
  · cases h

omit [DecidableEq U] in
/-- A label is found at its own citation. -/
theorem selected_of_label {cited : List (Citation U)} {label : Str} {c : Citation U}
    (h : (Dict.ofList (cited.map fun c => (c.citationId, c))).get? label = some c) :
    c ∈ cited ∧ c.citationId = label := by
  obtain ⟨d, hd, heq⟩ := List.mem_map.mp (Dict.mem_of_get?_ofList h)
  obtain ⟨rfl, rfl⟩ := Prod.mk.inj heq
  exact ⟨hd, rfl⟩

omit [DecidableEq U] in
/-- The answer names some of the citations, none twice. -/
theorem selectCitations_ok {cited chosen : List (Citation U)} {output : AnalysisOutput}
    (h : selectCitations cited output = .ok chosen) :
    chosen ⊆ cited ∧ (chosen.map Citation.citationId).Nodup ∧
      (output.evidenceStatus = .available → chosen ≠ []) := by
  unfold selectCitations at h
  dsimp only at h
  rw [ite_error_eq_ok] at h
  obtain ⟨hchecked, h⟩ := h
  obtain rfl := Except.ok.inj h
  set allowed := Dict.ofList (cited.map fun c => (c.citationId, c)) with hallowed
  simp only [Bool.or_eq_true, Bool.and_eq_true, decide_eq_true_eq, Bool.not_eq_true',
    List.all_eq_false, not_or, not_not, not_exists, not_and, Bool.not_eq_true, Bool.not_eq_false,
    List.isEmpty_iff] at hchecked
  obtain ⟨⟨hnd, hknown⟩, havailable⟩ := hchecked
  have hlabels : (output.citationIds.filterMap allowed.get?).map Citation.citationId
      = output.citationIds := by
    rw [List.map_filterMap]
    refine (List.filterMap_congr fun label hlabel => ?_).trans List.filterMap_some
    have hhas : label ∈ allowed.map Prod.fst := Dict.has_iff.mp (hknown label hlabel)
    cases hget : allowed.get? label with
    | none => exact absurd hhas (Dict.get?_eq_none.mp hget)
    | some c => rw [Option.map_some, (selected_of_label hget).2]
  refine ⟨fun c hc => ?_, ?_, fun hstatus => ?_⟩
  · obtain ⟨label, -, hget⟩ := List.mem_filterMap.mp hc
    exact (selected_of_label hget).1
  · rw [hlabels]
    exact hnd
  · intro hnil
    rw [hnil] at hlabels
    exact havailable hstatus hlabels.symm

omit [DecidableEq U] in
/-- The citations of distinct hits are of distinct records. -/
theorem recordIds_nodup {hits : List (Item F)} {cited : List (Citation U)}
    (hforall : List.Forall₂ (Cites ids env pin) hits cited)
    (hnd : (hits.map fun item => item.get "record_id").Nodup) :
    (cited.map Citation.recordId).Nodup := by
  have hkeys : hits.map (fun item => item.get "record_id")
      = cited.map fun c => (Value.str (ids.uuidStr c.recordId) : Value F) := by
    induction hforall with
    | nil => rfl
    | cons hcites _ ih =>
      rw [List.map_cons, List.nodup_cons] at hnd
      rw [List.map_cons, List.map_cons, hcites.recordId, ih hnd.2]
  rw [hkeys] at hnd
  have hcompose : (cited.map fun c => (Value.str (ids.uuidStr c.recordId) : Value F))
      = (cited.map Citation.recordId).map fun u => Value.str (ids.uuidStr u) := by
    rw [List.map_map]
    rfl
  rw [hcompose] at hnd
  exact hnd.of_map _

/-! ### The whole request -/

theorem pin_ok {replica : PublicationReplica U F} {documentIds : List U}
    {authorization : Option (Authorization U)}
    (h : replica.pin ids env (some documentIds) authorization = .ok pin) :
    replica.snapshot = some pin.snapshot ∧ ∀ d, d ∈ pin.documentIds ↔ d ∈ documentIds := by
  unfold PublicationReplica.pin at h
  rw [bind_eq_ok] at h
  obtain ⟨active, -, h⟩ := h
  split at h
  · rename_i snapshot generation hsnapshot
    rw [ite_error_eq_ok, bind_eq_ok] at h
    obtain ⟨-, -, -, h⟩ := h
    dsimp only at h
    rw [ite_error_eq_ok] at h
    obtain ⟨-, h⟩ := h
    obtain rfl := Except.ok.inj h
    refine ⟨hsnapshot, fun d => ?_⟩
    rw [List.mem_insertionSort, List.mem_dedup, Option.getD_some]
  · cases h

variable {provider : Provider} {service : DocumentAnalysis U F}

/-- What an answer cites is among the citations it was made from. -/
theorem answer_ok {query : Str} {cited : List (Citation U)} {result : AnalysisResult U}
    (h : answer ids env provider service query pin cited = .ok result) :
    result.generation = pin.snapshot.manifest.generation ∧ result.citations ⊆ cited ∧
      (result.citations.map Citation.citationId).Nodup ∧
      (result.evidenceStatus = .available → result.citations ≠ []) := by
  unfold answer at h
  dsimp only at h
  split at h
  · rw [bind_eq_ok] at h
    obtain ⟨-, -, h⟩ := h
    obtain rfl := Except.ok.inj h
    refine ⟨rfl, List.nil_subset _, List.nodup_nil, fun hstatus => ?_⟩
    cases hstatus
  · rw [bind_eq_ok] at h
    obtain ⟨-, -, h⟩ := h
    rw [bind_eq_ok] at h
    obtain ⟨annotations, -, h⟩ := h
    rw [ite_error_eq_ok, bind_eq_ok] at h
    obtain ⟨-, text, -, h⟩ := h
    rw [bind_eq_ok] at h
    obtain ⟨output, -, h⟩ := h
    rw [bind_eq_ok] at h
    obtain ⟨chosen, hchosen, h⟩ := h
    rw [bind_eq_ok] at h
    obtain ⟨-, -, h⟩ := h
    obtain rfl := Except.ok.inj h
    exact ⟨rfl, selectCitations_ok hchosen⟩

/-- An answer that fits the limits and passes the checks is returned. -/
theorem answer_eq_ok {query : Str} {cited chosen : List (Citation U)} {annotations : Json}
    {text : Option Bytes} {output : AnalysisOutput}
    (hpinned : ∀ site, validatePin env site pin = .ok ())
    (hannotations : env.annotations pin = .ok annotations) (hcited : cited ≠ [])
    (hinput : envelopeEstimate (systemPrompt provider) (dataPrompt ids query cited annotations)
      provider.schema ≤ service.inputBytes)
    (hcontext : envelopeEstimate (systemPrompt provider) (dataPrompt ids query cited annotations)
      provider.schema + service.outputTokens + service.capability.overheadTokens
        + service.capability.safetyTokens ≤ service.capability.contextTokens)
    (hexecute : ∀ system data, provider.execute system data = .ok text)
    (hdecode : decodeOutput provider text = .ok output)
    (hselect : selectCitations cited output = .ok chosen) :
    answer ids env provider service query pin cited = .ok ⟨pin.snapshot.manifest.generation,
      output.answer, output.evidenceStatus, chosen⟩ := by
  unfold answer
  rw [if_neg (by simpa using hcited)]
  refine bind_eq_ok.mpr ⟨(), hpinned _, bind_eq_ok.mpr ⟨annotations, hannotations, ?_⟩⟩
  refine ite_error_eq_ok.mpr ⟨?_, ?_⟩
  · simp only [Bool.or_eq_true, decide_eq_true_eq, not_or, not_lt]
    exact ⟨hinput, hcontext⟩
  · refine bind_eq_ok.mpr ⟨text, hexecute _ _, bind_eq_ok.mpr ⟨output, hdecode, ?_⟩⟩
    exact bind_eq_ok.mpr ⟨chosen, hselect, bind_eq_ok.mpr ⟨(), hpinned _, rfl⟩⟩

/-- The citations of an analysis: of distinct records, each of a hit of the request, and some if the
answer says that evidence is available. -/
structure Contained (ids : Ids U) (env : Environment U F) (pin : PinnedRequest U F)
    (hits : List (Item F)) (result : AnalysisResult U) : Prop where
  generation : result.generation = pin.snapshot.manifest.generation
  nodup : (result.citations.map Citation.recordId).Nodup
  cites : ∀ c ∈ result.citations, ∃ hit ∈ hits, Cites ids env pin hit c
  available : result.evidenceStatus = .available → result.citations ≠ []

variable [Floats F]

theorem analyze_ok {request : AnalysisRequest U} {authorization : Option (Authorization U)}
    {governed : Bool} {result : AnalysisResult U}
    (h : analyze ids env provider service request authorization governed = .ok result) :
    ∃ pin hits, service.replica.pin ids env (some request.documentIds) authorization = .ok pin ∧
      retrieve ids env request.query pin 8 = .ok hits ∧ Contained ids env pin hits result := by
  unfold analyze at h
  rw [ite_error_eq_ok, ite_error_eq_ok, bind_eq_ok] at h
  obtain ⟨-, -, pin, hpin, h⟩ := h
  rw [bind_eq_ok] at h
  obtain ⟨hits, hhits, h⟩ := h
  rw [bind_eq_ok] at h
  obtain ⟨cited, hcited, h⟩ := h
  obtain ⟨hforall, -⟩ := citations_ok hcited
  obtain ⟨hgeneration, hsubset, hlabels, havailable⟩ := answer_ok h
  have hnd := recordIds_nodup hforall (retrieve_ok hhits).nodup
  refine ⟨pin, hits, hpin, hhits, hgeneration, ?_, fun c hc => ?_, havailable⟩
  · refine (List.nodup_map_iff_inj_on hlabels.of_map).mpr fun x hx y hy hxy => ?_
    exact List.inj_on_of_nodup_map hnd (hsubset hx) (hsubset hy) hxy
  · obtain ⟨i, hi, rfl⟩ := List.getElem_of_mem (hsubset hc)
    have hlength : i < hits.length := hforall.length_eq ▸ hi
    exact ⟨hits[i], List.getElem_mem hlength, hforall.get hlength hi⟩

/-- **Hits and citations are contained**, whatever the vector store, the reranker and the provider
do.  A retrieval that returns, returns at most `topK` hits of distinct records of the pinned manifest,
of selected documents, with the manifest's text and metadata.  An analysis that returns, returns
citations of distinct records, each of a hit of the request and of a selected document, whose excerpt
is the slice of the source at the cited span; and some, if it says that evidence is available. -/
theorem citations_contained (ids : Ids U) (env : Environment U F) :
    (∀ query pin topK hits, retrieve ids env query pin topK = .ok hits →
      hits.length ≤ topK ∧ (hits.map fun hit => hit.get "record_id").Nodup ∧
        ∀ hit ∈ hits, ∃ record,
          FromRecord ids pin.snapshot.manifest pin.documentIds hit record) ∧
    ∀ provider service request authorization governed result,
      analyze ids env provider service request authorization governed = .ok result →
        ∃ pin hits, service.replica.pin ids env (some request.documentIds) authorization = .ok pin ∧
          service.replica.snapshot = some pin.snapshot ∧
          (∀ d, d ∈ pin.documentIds ↔ d ∈ request.documentIds) ∧
          retrieve ids env request.query pin 8 = .ok hits ∧ Contained ids env pin hits result := by
  constructor
  · intro query pin topK hits h
    have hhits := retrieve_ok h
    exact ⟨hhits.length_le, hhits.nodup, hhits.records⟩
  · intro provider service request authorization governed result h
    obtain ⟨pin, hits, hpin, hhits, hcontained⟩ := analyze_ok h
    obtain ⟨hsnapshot, hselected⟩ := pin_ok hpin
    exact ⟨pin, hits, hpin, hsnapshot, hselected, hhits, hcontained⟩

/-! ### A request that is answered -/

section Sample

instance : Floats Int where
  decidableLT := inferInstance

def sampleRecord : RetrievalRecord Nat :=
  ⟨20, sampleDocument.documentId, sampleDocument.documentVersionId, sampleArtifact.extractionId,
    sampleText, samplePiece.evidence, [], []⟩

def sampleManifest : PublicationManifest Nat :=
  ⟨21, sampleScope, [⟨sampleScope, sampleDocument.documentId, sampleDocument.documentVersionId,
    sampleArtifact.extractionId, sampleDocument.source⟩], [sampleRecord]⟩

def bareIds : Ids Nat := tableIds keep [] []

/-- A vector store that finds the one record, and a reranker that returns what it is given. -/
def sampleEnvironment : Environment Nat Int where
  oidc := false
  active := .ok (some sampleManifest.generation)
  validate _ := .ok ()
  revalidate _ := .ok ()
  similaritySearch _ _ _ := .ok [⟨.str sampleText,
    .dict ((vectorMetadata bareIds sampleManifest sampleRecord).map fun m => (m.1, .str m.2)), .number 0⟩]
  reranker _ fused _ := .ok (.list (fused.map .dict))
  identityText _ := []
  readArtifact _ _ := .ok sampleArtifact
  inspect _ _ _ := .ok ()
  annotations _ := .ok (.arr [])

/-- A provider that names the first citation. -/
def sampleProvider : Provider where
  execute _ _ := .ok (some [])
  parse _ := .ok ⟨"Alpha.".toList, .available, [citationLabel 1]⟩
  schema := .null

def samplePin : PinnedRequest Nat Int :=
  ⟨⟨sampleManifest, none⟩, [sampleDocument.documentId], none, []⟩

def sampleCitation : Citation Nat :=
  ⟨citationLabel 1, 21, 20, 102, 0, 2, "a.txt".toList, none, ⟨0, 6, some 1, some 1⟩, [], sampleText⟩

/-- The size of the prompt for a question is within the limit. -/
def SampleFits (query : Str) (limit : Nat) : Prop :=
  envelopeEstimate (systemPrompt sampleProvider)
    (dataPrompt bareIds query [sampleCitation] (.arr [])) sampleProvider.schema ≤ limit

def sampleService (limit : Nat) : DocumentAnalysis Nat Int where
  replica := ⟨bareIds.uuidStr sampleManifest.generation, some ⟨sampleManifest, none⟩, []⟩
  capability := ⟨limit, 0, 0⟩
  inputBytes := limit
  outputTokens := 0

theorem sample_pinned (limit : Nat) : (sampleService limit).replica.pin bareIds sampleEnvironment
    (some [sampleDocument.documentId]) none = .ok samplePin := rfl

theorem sample_cited (query : Str) : ∃ hits, retrieve bareIds sampleEnvironment query samplePin 8
      = .ok hits ∧ citations bareIds sampleEnvironment samplePin hits = .ok [sampleCitation] :=
  ⟨_, rfl, rfl⟩

/-- A prompt that fits is answered with the one citation. -/
theorem sample_answer {query : Str} {limit : Nat} (h : SampleFits query limit) :
    answer bareIds sampleEnvironment sampleProvider (sampleService limit) query samplePin
      [sampleCitation] = .ok ⟨21, "Alpha.".toList, .available, [sampleCitation]⟩ := by
  have hfits : envelopeEstimate (systemPrompt sampleProvider)
      (dataPrompt bareIds query [sampleCitation] (.arr [])) sampleProvider.schema ≤ limit := h
  have hcontext : envelopeEstimate (systemPrompt sampleProvider)
      (dataPrompt bareIds query [sampleCitation] (.arr [])) sampleProvider.schema
        + (sampleService limit).outputTokens + (sampleService limit).capability.overheadTokens
        + (sampleService limit).capability.safetyTokens
      ≤ (sampleService limit).capability.contextTokens := hfits
  have hannotations : sampleEnvironment.annotations samplePin = .ok (.arr []) := rfl
  exact answer_eq_ok (fun _ => rfl) hannotations (List.cons_ne_nil _ _) hfits hcontext
    (fun _ _ => rfl) rfl rfl

/-- Within some limits a question is answered with the one citation. -/
theorem sample_analyze {query : Str} (hquery : 1 ≤ query.length ∧ query.length ≤ 4096) :
    ∃ limit, analyze bareIds sampleEnvironment sampleProvider (sampleService limit)
      ⟨query, [sampleDocument.documentId]⟩ none false
        = .ok ⟨21, "Alpha.".toList, .available, [sampleCitation]⟩ := by
  obtain ⟨limit, hlimit⟩ : ∃ limit, SampleFits query limit := ⟨_, Nat.le_refl _⟩
  obtain ⟨hits, hretrieve, hcited⟩ := sample_cited query
  refine ⟨limit, ?_⟩
  unfold analyze
  rw [if_neg (by decide), if_neg (by simp [AnalysisRequest.valid, hquery])]
  refine bind_eq_ok.mpr ⟨samplePin, sample_pinned limit, bind_eq_ok.mpr ⟨hits, hretrieve, ?_⟩⟩
  exact bind_eq_ok.mpr ⟨[sampleCitation], hcited, sample_answer hlimit⟩

/-- The sample's question is answered with its one citation, which is contained. -/
theorem citations_contained_sample : ∃ limit pin hits result,
    analyze bareIds sampleEnvironment sampleProvider (sampleService limit)
      ⟨"First?".toList, [sampleDocument.documentId]⟩ none false = .ok result ∧
      result.citations = [sampleCitation] ∧ Contained bareIds sampleEnvironment pin hits result := by
  obtain ⟨limit, hanalyze⟩ := @sample_analyze "First?".toList (by decide)
  obtain ⟨pin, hits, -, -, -, -, hcontained⟩ :=
    (citations_contained bareIds sampleEnvironment).2 _ _ _ _ _ _ hanalyze
  exact ⟨limit, pin, hits, _, hanalyze, rfl, hcontained⟩

end Sample

end Polymind.Publication
