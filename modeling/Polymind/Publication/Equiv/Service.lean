import Polymind.Publication.Service
import Polymind.Publication.Equiv.History
import Polymind.Digestion.Equiv.Evidence
import Mathlib.Data.List.Dedup
import Mathlib.Data.List.Perm.Subperm

/-!
# What every publication service keeps

Whatever services run at once, are abandoned or fail, and whoever else writes to the vector store, every
candidate has one stored manifest, and a generation that is ready or accepted has all its rows.

* `Sound` is the invariant, and `Evolves` what every process may rely on and guarantees;
* `answers_sound`: an effect keeps both if it is `Permitted`;
* `ensures_validate`: a generation that was validated has all its rows, from then on;
* `Reachable.sound`: the invariant holds in every reachable state.
-/

namespace Polymind.Publication

namespace Authority

variable {U : Type} [DecidableEq U] {db : Authority U}

/-! ### The rows of the candidates -/

/-- A lookup after an update of the rows. -/
theorem candidate_update (cond : CandidateRow U → Bool) (set : CandidateRow U → CandidateRow U)
    (hset : ∀ row, (set row).generation = row.generation) (active : ActivePublication U)
    (activations : List (ActivationRow U)) (generation : U) :
    (Authority.mk active (Table.update cond set db.candidates) activations).candidate? generation
      = (db.candidate? generation).map fun row => if cond row then set row else row :=
  Table.lookup_update fun row _ => hset row

/-- A candidate keeps its manifest and its base, and only `mark` makes one ready. -/
theorem candidate_next (c : Call U) {generation : U} {row : CandidateRow U}
    (hrow : db.candidate? generation = some row) :
    ∃ row', (db.next c).candidate? generation = some row' ∧ row'.manifest = row.manifest
      ∧ row'.base = row.base ∧ (row'.state = .ready ∨ row'.state = .accepted →
        row.state = .ready ∨ row.state = .accepted ∨ ∃ error, c = .mark generation .ready error) := by
  have hm := next_moves db c
  generalize db.next c = db' at hm
  cases hm with
  | nothing => exact ⟨row, hrow, rfl, rfl, fun h => h.elim .inl fun h => .inr (.inl h)⟩
  | registers manifest ref hnew hbase =>
    refine ⟨row, ?_, rfl, rfl, fun h => h.elim .inl fun h => .inr (.inl h)⟩
    show Table.lookup _ _ _ = _
    rw [Table.lookup, List.find?_append, show List.find? _ db.candidates = some row from hrow]
    rfl
  | marks marked state error hstate =>
    rw [candidate_update (Authority.marks marked) (fun row => { row with state, error }) fun _ => rfl, hrow,
      Option.map_some]
    refine ⟨_, rfl, ?_⟩
    have hkey := (Table.lookup_mem hrow).2
    by_cases hmarks : Authority.marks marked row = true
    · rw [if_pos hmarks]
      refine ⟨rfl, rfl, ?_⟩
      rintro (h | h)
      · have hsame : row.generation = marked := by
          simp only [Authority.marks, Bool.and_eq_true, decide_eq_true_eq] at hmarks
          exact hmarks.1
        obtain rfl : state = .ready := h
        exact .inr (.inr ⟨error, by rw [← hsame, hkey]⟩)
      · obtain rfl : state = .accepted := h
        simp at hstate
    · rw [if_neg hmarks]
      exact ⟨rfl, rfl, fun h => h.elim .inl fun h => .inr (.inl h)⟩
  | activates activated operation found hfound hadmits =>
    rw [candidate_update (fun row => decide (row.generation = activated))
      (fun row => { row with state := .accepted, error := none }) fun _ => rfl, hrow, Option.map_some]
    refine ⟨_, rfl, ?_⟩
    have hkey := (Table.lookup_mem hrow).2
    by_cases hsame : decide (row.generation = activated) = true
    · rw [if_pos hsame]
      refine ⟨rfl, rfl, fun _ => ?_⟩
      -- the candidate was ready, or accepted before
      rw [decide_eq_true_eq, hkey] at hsame
      rw [← hsame] at hfound
      obtain rfl := Option.some.inj (hrow.symm.trans hfound)
      cases operation with
      | forward =>
        simp only [admits, Bool.and_eq_true, beq_iff_eq] at hadmits
        exact .inl hadmits.1
      | rollback =>
        simp only [admits, beq_iff_eq] at hadmits
        exact .inr (.inl hadmits)
    · rw [if_neg hsame]
      exact ⟨rfl, rfl, fun h => h.elim .inl fun h => .inr (.inl h)⟩

/-- A candidate that is new was registered. -/
theorem candidate_new (c : Call U) {generation : U} {row : CandidateRow U}
    (hrow : (db.next c).candidate? generation = some row) :
    (∃ old, db.candidate? generation = some old) ∨ ∃ manifest ref, c = .register manifest ref
      ∧ manifest.generation = generation ∧ row.manifest = ref ∧ row.base = manifest.base
      ∧ row.state = .preparing := by
  cases hold : db.candidate? generation with
  | some old => exact .inl ⟨old, rfl⟩
  | none =>
    have hm := next_moves db c
    generalize db.next c = db' at hm hrow
    cases hm with
    | nothing =>
      rw [hold] at hrow
      cases hrow
    | registers manifest ref hnew hbase =>
      have hfind : List.find? (fun row => decide (row.generation = generation)) db.candidates = none := hold
      have hrow : List.find? (fun row => decide (row.generation = generation))
          (db.candidates ++ [⟨manifest.generation, ref, manifest.base, .preparing, none⟩]) = some row := hrow
      rw [List.find?_append, hfind, Option.none_or, List.find?_singleton] at hrow
      split_ifs at hrow with hsame
      obtain rfl := Option.some.inj hrow
      exact .inr ⟨manifest, ref, rfl, of_decide_eq_true hsame, rfl, rfl, rfl⟩
    | marks marked state error hstate =>
      rw [candidate_update (Authority.marks marked) (fun row => { row with state, error }) fun _ => rfl,
        hold] at hrow
      cases hrow
    | activates activated operation found hfound hadmits =>
      rw [candidate_update (fun row => decide (row.generation = activated))
        (fun row => { row with state := .accepted, error := none }) fun _ => rfl, hold] at hrow
      cases hrow

end Authority

namespace Service

open Json Documents Digestion Planning Process

variable {U : Type} [DecidableEq U] {ids : Ids U} {encoder : RetrievalEncoder} {scope : Scope U}
  {w w' : World U} {m n : Planning.PublicationManifest U}

/-! ### Identities -/

omit [DecidableEq U] in
theorem physicalId_inj (hc : ids.CollisionFree) {g g' r r' : U}
    (h : physicalId ids g r = physicalId ids g' r') : g = g' ∧ r = r' := by
  have hparts := hc.stableId_injective (hc.uuidStr_injective h)
  simp only [List.cons.injEq, and_true, true_and] at hparts
  exact ⟨hc.uuidStr_injective hparts.1, hc.uuidStr_injective hparts.2⟩

/-- The records of a valid manifest have distinct ids. -/
theorem recordIds_nodup (hvalid : m.valid ids = true) : (m.records.map fun r => r.recordId).Nodup := by
  simp only [Planning.PublicationManifest.valid, Bool.and_eq_true, beq_iff_eq] at hvalid
  have hdedup := (List.dedup_sublist _).eq_of_length (hvalid.1.1.1.2.trans (List.length_map _).symm)
  exact List.dedup_eq_self.mp hdedup

theorem records_inj (hvalid : m.valid ids = true) {r s : Planning.RetrievalRecord U}
    (hr : r ∈ m.records) (hs : s ∈ m.records) (h : r.recordId = s.recordId) : r = s :=
  List.inj_on_of_nodup_map (recordIds_nodup hvalid) hr hs h

/-- A record of a valid manifest belongs to one of its documents. -/
theorem document_known (hvalid : m.valid ids = true) {r : Planning.RetrievalRecord U}
    (hr : r ∈ m.records) : r.documentId ∈ m.documents.map fun d => d.documentId := by
  simp only [Planning.PublicationManifest.valid, Bool.and_eq_true, List.all_eq_true] at hvalid
  have hdoc := hvalid.1.2 r hr
  split at hdoc
  · cases hdoc
  · next d hd =>
    obtain ⟨d', hd', heq⟩ := List.mem_map.mp (Dict.mem_of_get?_ofList hd)
    rw [← (Prod.mk.inj heq).1]
    exact List.mem_map_of_mem hd'

/-! ### References to manifests -/

omit [DecidableEq U] in
theorem floatFree_ref (ref : ObjectRef U) : floatFree (ref.modelDump ids) = true := by
  simp only [ObjectRef.modelDump, record, List.map, floatFree, floatFreeFields, floatFree_scope, Ids.uuidJson,
    text, Json.nat, Bool.and_self]

theorem floatFreeItems_map {α : Type} {f : α → Json} (h : ∀ a, floatFree (f a) = true) (l : List α) :
    floatFreeItems (l.map f) = true := by
  induction l with
  | nil => rfl
  | cons a l ih => rw [List.map_cons, floatFreeItems, h, ih, Bool.and_self]

omit [DecidableEq U] in
theorem floatFree_base (base : ActivePublication U) : floatFree (activeDump ids base) = true := by
  cases hgeneration : base.generation <;>
    simp only [activeDump, record, List.map, floatFree, floatFreeFields, Json.option, hgeneration,
      Ids.uuidJson, Json.nat, Bool.and_self]

omit [DecidableEq U] in
theorem floatFree_manifest (m : Planning.PublicationManifest U) : floatFree (m.modelDump ids) = true := by
  have hdocument (d : Planning.AcceptedDocument U) : floatFree (d.modelDump ids) = true := by
    simp only [AcceptedDocument.modelDump, record, List.map, floatFree, floatFreeFields, floatFree_scope,
      floatFree_ref, Ids.uuidJson, text, Bool.and_self]
  have hrecord (r : Planning.RetrievalRecord U) : floatFree (r.modelDump ids) = true := by
    simp only [RetrievalRecord.modelDump, RetrievalRecord.payload, record, List.map, floatFree, floatFreeFields,
      floatFreeItems_map (f := Json.str) fun _ => rfl, floatFree_evidence, Ids.uuidJson, text, Bool.and_self]
  simp only [PublicationManifest.modelDump, RetrievalProfile.modelDump, Ids.uuidsJson, record, List.map,
    floatFree, floatFreeFields, floatFree_scope, floatFree_base, floatFreeItems_map hdocument,
    floatFreeItems_map hrecord, floatFreeItems_map (f := ids.uuidJson) fun _ => rfl, Ids.uuidJson, text, Json.nat,
    Bool.and_self]

omit [DecidableEq U] in
theorem base_of_canonical (hc : ids.CollisionFree) {a b : ActivePublication U}
    (h : canonical (activeDump ids a) = canonical (activeDump ids b)) : a = b := by
  have hkeys : ∀ a : ActivePublication U, (["generation".toList, "epoch".toList] : List Str)
      = ([("generation", .option ids.uuidJson a.generation), ("epoch", .nat a.epoch)].map
        fun f : String × Json => (f.1.toList, f.2)).map Prod.fst := by
    intro
    simp only [List.map_cons, List.map_nil]
  have hvalues := canonical_obj_injective ((hkeys a).symm.trans (hkeys b)) (hkeys a ▸ by decide)
    (hkeys a ▸ plain_of_all (by decide)) (floatFree_base a) (floatFree_base b) h
  simp only [List.map_cons, List.map_nil, List.cons.injEq, and_true] at hvalues
  obtain ⟨hgeneration, hepoch⟩ := hvalues
  obtain ⟨generation, epoch⟩ := a
  obtain ⟨generation', epoch'⟩ := b
  obtain rfl : epoch = epoch' := toDigits_injective hepoch
  -- an id is a quoted text, and so never `null`
  cases generation with
  | none =>
    cases generation' with
    | none => rfl
    | some g => cases congrArg List.head? hgeneration
  | some g =>
    cases generation' with
    | none => cases congrArg List.head? hgeneration
    | some g' => rw [hc.uuidStr_injective (canonical_str_injective hgeneration)]

omit [DecidableEq U] in
/-- A reference determines the base of its manifest. -/
theorem base_of_ref (hc : ids.CollisionFree) (h : manifestRef ids scope m = manifestRef ids scope n) :
    m.base = n.base := by
  have htext := hc.sha256_injective (congrArg ObjectRef.sha256 h)
  have hkeys : ∀ m : Planning.PublicationManifest U, (["schema_version".toList, "generation".toList,
      "scope".toList, "base".toList, "profile".toList, "documents".toList, "records".toList,
      "removed_versions".toList, "policy".toList] : List Str)
      = ([("schema_version", .text "publication/1"), ("generation", ids.uuidJson m.generation),
        ("scope", m.scope.modelDump ids), ("base", activeDump ids m.base), ("profile", m.profile.modelDump),
        ("documents", .arr (m.documents.map (AcceptedDocument.modelDump ids))),
        ("records", .arr (m.records.map (RetrievalRecord.modelDump ids))),
        ("removed_versions", ids.uuidsJson m.removedVersions), ("policy", .text "COMPLETE_ONLY")].map
          fun f : String × Json => (f.1.toList, f.2)).map Prod.fst := by
    intro
    simp only [List.map_cons, List.map_nil]
  have hvalues := canonical_obj_injective ((hkeys m).symm.trans (hkeys n)) (hkeys m ▸ by decide)
    (hkeys m ▸ plain_of_all (by decide)) (floatFree_manifest m) (floatFree_manifest n) htext
  simp only [List.map_cons, List.cons.injEq] at hvalues
  exact base_of_canonical hc hvalues.2.2.2.1

omit [DecidableEq U] in
/-- A reference determines the generation of its manifest. -/
theorem generation_of_ref (hc : ids.CollisionFree) (h : manifestRef ids scope m = manifestRef ids scope n) :
    m.generation = n.generation := by
  have hparts := hc.stableId_injective (congrArg ObjectRef.objectId h)
  simp only [List.cons.injEq, and_true, true_and] at hparts
  exact hc.uuidStr_injective hparts

/-! ### The invariant -/

/-- The manifest of a candidate. -/
def Registered (w : World U) (m : Planning.PublicationManifest U) : Prop :=
  ∃ row, w.authority.candidate? m.generation = some row
    ∧ w.objects.get? row.manifest.key = some (row.manifest, m)

/-- The rows of all records are there. -/
def Present (ids : Ids U) (w : World U) (m : Planning.PublicationManifest U) : Prop :=
  ∀ r ∈ m.records, w.vectors.get? (physicalId ids m.generation r.recordId) = some (vectorRow ids m r)

/-- A row of a candidate, where it belongs. -/
def RowOf (ids : Ids U) (w : World U) (id : Str) (row : VectorDocument) : Prop :=
  ∃ m r, Registered w m ∧ r ∈ m.records ∧ id = physicalId ids m.generation r.recordId
    ∧ row = vectorRow ids m r

structure Sound (ids : Ids U) (scope : Scope U) (w : World U) : Prop where
  linear : w.authority.Linear
  keys : (w.vectors.map Prod.fst).Nodup
  stored : ∀ key ref m, w.objects.get? key = some (ref, m) →
    ref = manifestRef ids scope m ∧ m.valid ids = true
  registered : ∀ generation row, w.authority.candidate? generation = some row →
    ∃ m, m.generation = generation ∧ Registered w m
  rows : ∀ id row, w.vectors.get? id = some row →
    row.metadata.get? "generation".toList = none ∨ RowOf ids w id row
  base : ∀ m row, Registered w m → w.authority.candidate? m.generation = some row → row.base = m.base
  complete : ∀ m row, Registered w m → w.authority.candidate? m.generation = some row →
    row.state = .ready ∨ row.state = .accepted → Present ids w m

/-- What every process may rely on, and guarantees. -/
structure Evolves (ids : Ids U) (w w' : World U) : Prop where
  candidate : ∀ generation row, w.authority.candidate? generation = some row →
    ∃ row', w'.authority.candidate? generation = some row' ∧ row'.manifest = row.manifest
  objects : ∀ key x, w.objects.get? key = some x → w'.objects.get? key = some x
  present : ∀ m, Registered w m → Present ids w m → Present ids w' m

theorem Registered.later (h : Registered w m) (hw : Evolves ids w w') : Registered w' m := by
  obtain ⟨row, hrow, hobject⟩ := h
  obtain ⟨row', hrow', hsame⟩ := hw.candidate _ row hrow
  exact ⟨row', hrow', by rw [hsame]; exact hw.objects _ _ hobject⟩

theorem Evolves.refl (ids : Ids U) (w : World U) : Evolves ids w w :=
  ⟨fun _ row h => ⟨row, h, rfl⟩, fun _ _ h => h, fun _ _ h => h⟩

theorem Evolves.trans {a b c : World U} (hab : Evolves ids a b) (hbc : Evolves ids b c) :
    Evolves ids a c := by
  constructor
  · intro generation row hrow
    obtain ⟨row', hrow', hsame⟩ := hab.candidate generation row hrow
    obtain ⟨row'', hrow'', hsame'⟩ := hbc.candidate generation row' hrow'
    exact ⟨row'', hrow'', hsame'.trans hsame⟩
  · exact fun key x hx => hbc.objects key x (hab.objects key x hx)
  · exact fun m hm hpresent => hbc.present m (hm.later hab) (hab.present m hm hpresent)

/-- A generation has one manifest. -/
theorem Registered.unique (h : Registered w m) (h' : Registered w n) (hg : m.generation = n.generation) :
    m = n := by
  obtain ⟨row, hrow, hobject⟩ := h
  obtain ⟨row', hrow', hobject'⟩ := h'
  rw [← hg, hrow] at hrow'
  obtain rfl := Option.some.inj hrow'
  rw [hobject] at hobject'
  exact (Prod.mk.inj (Option.some.inj hobject')).2

theorem Sound.valid (hw : Sound ids scope w) (h : Registered w m) : m.valid ids = true := by
  obtain ⟨row, -, hobject⟩ := h
  exact (hw.stored _ _ _ hobject).2

theorem RowOf.later {id : Str} {row : VectorDocument} (h : RowOf ids w id row) (hw : Evolves ids w w') :
    RowOf ids w' id row := by
  obtain ⟨m, r, hm, hr⟩ := h
  exact ⟨m, r, hm.later hw, hr⟩

/-- A later manifest of an older candidate is its manifest. -/
theorem Sound.registered_earlier (hw : Sound ids scope w) (hlater : Evolves ids w w')
    (h : Registered w' m) {row : CandidateRow U} (hrow : w.authority.candidate? m.generation = some row) :
    Registered w m := by
  obtain ⟨n, hgeneration, hn⟩ := hw.registered _ row hrow
  have hsame := (hn.later hlater).unique h hgeneration
  rwa [hsame] at hn

/-! ### What an effect keeps -/

/-- What a call of the authority needs. -/
def Authorized (ids : Ids U) (w : World U) : Authority.Call U → Prop
  | .register manifest ref =>
    ∃ stored, w.objects.get? ref.key = some (ref, stored) ∧ stored.generation = manifest.generation
      ∧ stored.base = manifest.base
  | .mark generation state _ => state = .ready →
    ∃ m, m.generation = generation ∧ Registered w m ∧ Present ids w m
  | .activate _ _ _ => True

theorem evolves_authority (ids : Ids U) (w : World U) (c : Authority.Call U) :
    Evolves ids w { w with authority := w.authority.next c } := by
  constructor
  · intro generation row hrow
    obtain ⟨row', hrow', hsame, -⟩ := Authority.candidate_next c hrow
    exact ⟨row', hrow', hsame⟩
  · exact fun _ _ hx => hx
  · exact fun _ _ hpresent => hpresent

theorem sound_authority (hw : Sound ids scope w) {c : Authority.Call U} (hc : Authorized ids w c) :
    Sound ids scope { w with authority := w.authority.next c } := by
  have hevolves := evolves_authority ids w c
  refine ⟨Authority.linear_next hw.linear c, hw.keys, hw.stored, ?_, ?_, ?_, ?_⟩
  · intro generation row hrow
    rcases Authority.candidate_new c hrow with ⟨old, hold⟩ | ⟨manifest, ref, rfl, hgeneration, href, -⟩
    · obtain ⟨m, hm, hregistered⟩ := hw.registered generation old hold
      exact ⟨m, hm, hregistered.later hevolves⟩
    · -- the manifest was stored before it was registered
      obtain ⟨stored, hstored, hsame, -⟩ := hc
      refine ⟨stored, hsame.trans hgeneration, row, ?_, ?_⟩
      · rw [hsame, hgeneration]
        exact hrow
      · rw [href]
        exact hstored
  · intro id row hrow
    exact (hw.rows id row hrow).imp_right fun h => h.later hevolves
  · intro m row hm hrow
    rcases Authority.candidate_new c hrow with ⟨old, hold⟩ | ⟨manifest, ref, rfl, hgeneration, href, hbase, -⟩
    · obtain ⟨row', hrow', -, hsame, -⟩ := Authority.candidate_next c hold
      obtain rfl := Option.some.inj (hrow'.symm.trans hrow)
      rw [hsame, hw.base m old (hw.registered_earlier hevolves hm hold) hold]
    · obtain ⟨stored, hstored, -, hsame⟩ := hc
      obtain ⟨row', hrow', hobject⟩ := hm
      obtain rfl := Option.some.inj (hrow'.symm.trans hrow)
      rw [href, hstored] at hobject
      rw [← (Prod.mk.inj (Option.some.inj hobject)).2, hsame, hbase]
  · intro m row hm hrow hstate
    show Present ids w m
    rcases Authority.candidate_new c hrow with ⟨old, hold⟩ | ⟨-, -, -, -, -, -, hnew⟩
    · have hearlier := hw.registered_earlier hevolves hm hold
      obtain ⟨row', hrow', -, -, hready⟩ := Authority.candidate_next c hold
      obtain rfl := Option.some.inj (hrow'.symm.trans hrow)
      rcases hready hstate with h | h | ⟨error, rfl⟩
      · exact hw.complete m old hearlier hold (.inl h)
      · exact hw.complete m old hearlier hold (.inr h)
      · obtain ⟨n, hgeneration, hn, hpresent⟩ := hc rfl
        rwa [hn.unique hearlier hgeneration] at hpresent
    · rw [hnew] at hstate
      rcases hstate with h | h <;> cases h

/-- A manifest is stored. -/
theorem sound_object (hw : Sound ids scope w) (hvalid : m.valid ids = true)
    (hnew : w.objects.get? (manifestRef ids scope m).key = none) :
    let w' := { w with objects := w.objects.set (manifestRef ids scope m).key (manifestRef ids scope m, m) }
    Sound ids scope w' ∧ Evolves ids w w' := by
  intro w'
  have hevolves : Evolves ids w w' := by
    refine ⟨fun _ row h => ⟨row, h, rfl⟩, fun key x hx => ?_, fun _ _ h => h⟩
    show Dict.get? (Dict.set _ _ _) key = some x
    rw [Dict.get?_set, if_neg, hx]
    rintro rfl
    rw [hnew] at hx
    cases hx
  refine ⟨⟨hw.linear, hw.keys, ?_, ?_, ?_, ?_, ?_⟩, hevolves⟩
  · intro key ref n hn
    have hn : Dict.get? (Dict.set _ _ _) key = some (ref, n) := hn
    rw [Dict.get?_set] at hn
    split_ifs at hn with hkey
    · cases hn
      exact ⟨rfl, hvalid⟩
    · exact hw.stored key ref n hn
  · intro generation row hrow
    obtain ⟨n, hn, hregistered⟩ := hw.registered generation row hrow
    exact ⟨n, hn, hregistered.later hevolves⟩
  · intro id row hrow
    exact (hw.rows id row hrow).imp_right fun h => h.later hevolves
  · exact fun n row hn hrow => hw.base n row (hw.registered_earlier hevolves hn hrow) hrow
  · intro n row hn hrow hstate
    exact hw.complete n row (hw.registered_earlier hevolves hn hrow) hrow hstate

/-- A row is written, and replaces only itself. -/
theorem sound_row (hw : Sound ids scope w) {id : Str} {row : VectorDocument}
    (hrow : row.metadata.get? "generation".toList = none ∨ RowOf ids w id row)
    (hsame : ∀ m r, Registered w m → r ∈ m.records → id = physicalId ids m.generation r.recordId →
      row = vectorRow ids m r) :
    let w' := { w with vectors := w.vectors.set id row }
    Sound ids scope w' ∧ Evolves ids w w' := by
  intro w'
  have hpresent : ∀ m, Registered w m → Present ids w m → Present ids w' m := by
    intro m hm hold r hr
    show Dict.get? (Dict.set _ _ _) _ = _
    rw [Dict.get?_set]
    split_ifs with hid
    · rw [hsame m r hm hr hid.symm]
    · exact hold r hr
  have hevolves : Evolves ids w w' := ⟨fun _ row h => ⟨row, h, rfl⟩, fun _ _ h => h, hpresent⟩
  refine ⟨⟨hw.linear, Dict.nodup_set hw.keys id row, hw.stored, hw.registered, ?_, hw.base, ?_⟩, hevolves⟩
  · intro id' row' hrow'
    have hrow' : Dict.get? (Dict.set _ _ _) id' = some row' := hrow'
    rw [Dict.get?_set] at hrow'
    split_ifs at hrow' with hid
    · rw [hid, ← Option.some.inj hrow']
      exact hrow
    · exact hw.rows id' row' hrow'
  · exact fun m row hm hrow hstate => hpresent m hm (hw.complete m row hm hrow hstate)

theorem RowOf.same (hc : ids.CollisionFree) (hw : Sound ids scope w) {id : Str} {row : VectorDocument}
    (h : RowOf ids w id row) (hm : Registered w m) {r : Planning.RetrievalRecord U} (hr : r ∈ m.records)
    (hid : id = physicalId ids m.generation r.recordId) : row = vectorRow ids m r := by
  obtain ⟨n, s, hn, hs, hid', rfl⟩ := h
  obtain ⟨hgeneration, hrecord⟩ := physicalId_inj hc (hid'.symm.trans hid)
  obtain rfl := hn.unique hm hgeneration
  rw [records_inj (hw.valid hn) hs hr hrecord]

/-- Another writer keeps the invariant. -/
theorem sound_foreign (hw : Sound ids scope w) (h : foreign ids w w') :
    Sound ids scope w' ∧ Evolves ids w w' := by
  obtain ⟨id, row, hid, hrow, rfl⟩ := h
  exact sound_row hw (.inl hrow) fun m r _ _ heq => absurd heq (hid m.generation r.recordId)

/-- What an effect needs. -/
def Permitted (ids : Ids U) (w : World U) : Effect U → Prop
  | .put m => m.valid ids = true
  | .register m ref => Authorized ids w (.register ⟨m.generation, m.base⟩ ref)
  | .mark generation state error => Authorized ids w (.mark generation state error)
  | .upsert id row => RowOf ids w id row
  | _ => True

theorem transacts_sound (hw : Sound ids scope w) {α : Type} {c : Authority.Call U} {r : Except Fault α}
    {expected : Option (ActivePublication U) → α → Prop} (hc : Authorized ids w c)
    (h : transacts c w r expected w') : Sound ids scope w' ∧ Evolves ids w w' := by
  have hnext := And.intro (sound_authority hw hc) (evolves_authority ids w c)
  cases r with
  | ok a =>
    obtain ⟨answer, -, -, rfl⟩ := h
    exact hnext
  | error e =>
    rcases h with rfl | rfl
    · exact ⟨hw, .refl ids w'⟩
    · exact hnext

/-- A permitted effect keeps the invariant, whatever it answers. -/
theorem answers_sound (hc : ids.CollisionFree) (hw : Sound ids scope w) {e : Effect U}
    {r : Except Fault e.Answer} (hpermitted : Permitted ids w e) (h : answers ids scope e w r w') :
    Sound ids scope w' ∧ Evolves ids w w' := by
  have hsame : w' = w → Sound ids scope w' ∧ Evolves ids w w' := by
    rintro rfl
    exact ⟨hw, .refl ids w'⟩
  cases e with
  | manage => exact hsame h
  | checkpoint point => exact hsame h
  | accepted jobId => exact hsame h
  | embed text => exact hsame h
  | index m => exact hsame h
  | active => exact hsame h.1
  | candidate generation => exact hsame h.1
  | inventory => exact hsame h.1
  | read ref => exact hsame h.1
  | listDocuments filter => exact hsame h.1
  | register m ref => exact transacts_sound (c := .register ⟨m.generation, m.base⟩ ref) hw hpermitted h
  | mark generation state error =>
    exact transacts_sound (c := .mark generation state error) hw hpermitted h
  | activate generation expected operation =>
    exact transacts_sound (c := .activate generation expected operation) hw trivial h
  | put m =>
    rcases h.1 with hw' | ⟨hnew, rfl⟩
    · exact hsame hw'
    · exact sound_object hw hpermitted hnew
  | upsert id row =>
    rcases h with rfl | ⟨hw', -⟩
    · exact sound_row hw (.inr hpermitted) fun m r hm hr hid => hpermitted.same hc hw hm hr hid
    · exact hsame hw'

/-! ### What the vector store lists -/

omit [DecidableEq U] in
theorem vectorRow_generation (m : Planning.PublicationManifest U) (r : Planning.RetrievalRecord U) :
    (vectorRow ids m r).metadata.get? "generation".toList = some (.str (ids.uuidStr m.generation)) := rfl

omit [DecidableEq U] in
theorem vectorRow_record (m : Planning.PublicationManifest U) (r : Planning.RetrievalRecord U) :
    (vectorRow ids m r).metadata.get? "record_id".toList = some (.str (ids.uuidStr r.recordId)) := rfl

omit [DecidableEq U] in
theorem vectorRow_document (m : Planning.PublicationManifest U) (r : Planning.RetrievalRecord U) :
    (vectorRow ids m r).metadata.get? "document_id".toList = some (.str (ids.uuidStr r.documentId)) := rfl

/-- A row that is listed for a generation is one of its manifest. -/
theorem Sound.listed (hc : ids.CollisionFree) (hw : Sound ids scope w) (hm : Registered w m) {id : Str}
    {row : VectorDocument} (hrow : w.vectors.get? id = some row)
    (hgeneration : row.metadata.get? "generation".toList = some (.str (ids.uuidStr m.generation))) :
    ∃ r ∈ m.records, id = physicalId ids m.generation r.recordId ∧ row = vectorRow ids m r := by
  rcases hw.rows id row hrow with hnone | ⟨n, r, hn, hr, hid, rfl⟩
  · rw [hnone] at hgeneration
    cases hgeneration
  · rw [vectorRow_generation] at hgeneration
    have hsame := hc.uuidStr_injective (Scalar.str.inj (Option.some.inj hgeneration))
    obtain rfl := hn.unique hm hsame
    exact ⟨r, hr, hid, rfl⟩

/-- Equal dictionaries have the same keys. -/
theorem sameDict_get? {K V : Type} [DecidableEq K] {same : V → V → Bool} {d e : Dict K V}
    (hd : (d.map Prod.fst).Nodup) (h : sameDict same d e = true) {k : K} {v : V} (hv : e.get? k = some v) :
    ∃ u, d.get? k = some u ∧ same u v = true := by
  simp only [sameDict, Bool.and_eq_true, beq_iff_eq, List.all_eq_true] at h
  obtain ⟨hlength, hall⟩ := h
  have hsubset : d.map Prod.fst ⊆ e.map Prod.fst := by
    intro key hkey
    obtain ⟨p, hp, rfl⟩ := List.mem_map.mp hkey
    obtain ⟨u, hu, -⟩ := (Option.any_eq_true _ _).mp (hall p hp)
    exact List.mem_map.mpr ⟨_, Dict.mem_of_get? hu, rfl⟩
  -- as many keys, and none of them twice
  have hperm := (hd.subperm hsubset).perm_of_length_le (by simp [hlength])
  have hkey := hperm.mem_iff.mpr (List.mem_map_of_mem (Dict.mem_of_get? hv))
  obtain ⟨p, hp, rfl⟩ := List.mem_map.mp hkey
  have hsame := hall p hp
  rw [hv] at hsame
  exact ⟨p.2, Dict.get?_of_mem hd hp, hsame⟩

/-- A listing that matches the manifest has all its rows. -/
theorem present_of_matches (hc : ids.CollisionFree) (hw : Sound ids scope w) (hm : Registered w m)
    {rows : List VectorDocument}
    (hrows : rows.Perm ((w.vectors.map Prod.snd).filter
      (VectorDocument.matches (some ⟨ids.uuidStr m.generation, []⟩))))
    (h : inventoryMatches ids m m.records rows = true) : Present ids w m := by
  intro r hr
  rw [inventoryMatches, Bool.and_eq_true] at h
  have hkey : some (.str (ids.uuidStr r.recordId)) ∈ (m.records.map fun r =>
      (some (Scalar.str (ids.uuidStr r.recordId)), vectorRow ids m r)).map Prod.fst := by
    rw [List.map_map]
    exact List.mem_map.mpr ⟨r, hr, rfl⟩
  obtain ⟨row, hrow⟩ := Dict.get?_ofList_of_mem hkey
  obtain ⟨found, hfound, -⟩ := sameDict_get? (Dict.nodup_ofList _) h.2 hrow
  obtain ⟨listed, hlisted, heq⟩ := List.mem_map.mp (Dict.mem_of_get?_ofList hfound)
  obtain ⟨hrecord, rfl⟩ := Prod.mk.inj heq
  obtain ⟨hmem, hmatches⟩ := List.mem_filter.mp (hrows.mem_iff.mp hlisted)
  obtain ⟨p, hp, rfl⟩ := List.mem_map.mp hmem
  simp only [VectorDocument.matches, List.isEmpty_nil, Bool.true_or, Bool.and_true, beq_iff_eq] at hmatches
  have hget := Dict.get?_of_mem hw.keys hp
  obtain ⟨s, hs, hid, hsame⟩ := hw.listed hc hm hget hmatches
  -- it is the row of this record
  rw [hsame, vectorRow_record] at hrecord
  have hids := hc.uuidStr_injective (Scalar.str.inj (Option.some.inj hrecord))
  rw [records_inj (hw.valid hm) hs hr hids] at hid hsame
  rw [← hid, hget, hsame]

/-- The rows of a generation are those of its records, no more and no less. -/
theorem Present.listed (hc : ids.CollisionFree) (hw : Sound ids scope w) (hm : Registered w m)
    (h : Present ids w m) : ((w.vectors.map Prod.snd).filter
      (VectorDocument.matches (some ⟨ids.uuidStr m.generation, []⟩))).Perm
        (m.records.map (vectorRow ids m)) := by
  have hpairs : (w.vectors.filter (VectorDocument.matches (some ⟨ids.uuidStr m.generation, []⟩) ∘ Prod.snd)).Perm
      (m.records.map fun r => (physicalId ids m.generation r.recordId, vectorRow ids m r)) := by
    refine (List.perm_ext_iff_of_nodup (hw.keys.of_map.filter _) ?_).mpr fun p => ?_
    · refine List.Nodup.map_on (fun r hr s hs heq => ?_) (recordIds_nodup (hw.valid hm)).of_map
      exact records_inj (hw.valid hm) hr hs (physicalId_inj hc (Prod.mk.inj heq).1).2
    · rw [List.mem_filter, List.mem_map]
      constructor
      · rintro ⟨hp, hmatches⟩
        simp only [Function.comp_apply, VectorDocument.matches, List.isEmpty_nil, Bool.true_or, Bool.and_true,
          beq_iff_eq] at hmatches
        obtain ⟨r, hr, hid, hrow⟩ := hw.listed hc hm (Dict.get?_of_mem hw.keys hp) hmatches
        exact ⟨r, hr, by rw [← hid, ← hrow]⟩
      · rintro ⟨r, hr, rfl⟩
        refine ⟨Dict.mem_of_get? (h r hr), ?_⟩
        simp only [Function.comp_apply, VectorDocument.matches, vectorRow_generation, List.isEmpty_nil,
          Bool.true_or, Bool.and_true, BEq.rfl]
  rw [List.filter_map]
  refine (hpairs.map Prod.snd).trans (List.Perm.of_eq ?_)
  rw [List.map_map]
  rfl

/-- The rows that are listed for some documents are those of their records. -/
theorem Present.selected (hc : ids.CollisionFree) (hw : Sound ids scope w) (hm : Registered w m)
    (h : Present ids w m) (documentIds : List U) : ((w.vectors.map Prod.snd).filter
      (VectorDocument.matches (some ⟨ids.uuidStr m.generation, documentIds.map ids.uuidStr⟩))).Perm
        ((m.records.filter fun r => documentIds.isEmpty || documentIds.contains r.documentId).map
          (vectorRow ids m)) := by
  have hfilter := (h.listed hc hw hm).filter fun row => (documentIds.map ids.uuidStr).isEmpty
    || (documentIds.map ids.uuidStr).any fun d => row.metadata.get? "document_id".toList == some (.str d)
  rw [List.filter_filter] at hfilter
  refine (List.Perm.of_eq (List.filter_congr fun row _ => ?_)).trans
    (hfilter.trans (List.Perm.of_eq (List.filter_map.trans
      (congrArg _ (List.filter_congr fun r _ => ?_)))))
  · simp only [VectorDocument.matches, List.isEmpty_nil, Bool.true_or, Bool.and_true]
    exact Bool.and_comm _ _
  · rw [Function.comp_apply, vectorRow_document, List.isEmpty_map, List.any_map, Bool.eq_iff_iff]
    simp only [Bool.or_eq_true, List.any_eq_true, Function.comp_apply, beq_iff_eq, Option.some.injEq,
      Scalar.str.injEq, List.contains_iff_mem]
    refine or_congr_right ⟨?_, fun hmem => ⟨_, hmem, rfl⟩⟩
    rintro ⟨d, hd, heq⟩
    rwa [hc.uuidStr_injective heq]

/-! ### What the methods ensure -/

/-- An effect that is permitted whenever it comes. -/
theorem ensures_perform (hc : ids.CollisionFree) {e : Effect U} {φ : e.Answer → World U → Prop}
    (hpermitted : ∀ w', Sound ids scope w' → Evolves ids w w' → Permitted ids w' e)
    (h : ∀ w' a w'', Sound ids scope w' → Evolves ids w w' → Sound ids scope w'' → Evolves ids w' w'' →
      answers ids scope e w' (.ok a) w'' → φ a w'') :
    Ensures (answers ids scope) (Sound ids scope) (Evolves ids) φ (perform e) w := by
  refine Ensures.perform (fun _ _ _ => Evolves.trans) fun w' r w'' hevolves hw' hr => ?_
  obtain ⟨hw'', hlater⟩ := answers_sound hc hw' (hpermitted w' hw' hevolves) hr
  refine ⟨hw'', hlater, fun a ha => ?_⟩
  subst ha
  exact h w' a w'' hw' hevolves hw'' hlater hr

/-- An effect that only reads. -/
theorem ensures_reads (hc : ids.CollisionFree) {e : Effect U}
    (hpermitted : ∀ w', Permitted ids w' e) :
    Ensures (answers ids scope) (Sound ids scope) (Evolves ids) (fun _ _ => True) (perform e) w :=
  ensures_perform hc (fun w' _ _ => hpermitted w') fun _ _ _ _ _ _ _ _ => trivial

section

variable {α β : Type} {φ : α → World U → Prop} {ψ : β → World U → Prop} {p : Method U α}

theorem ensures_bind {f : α → Method U β}
    (hp : Ensures (answers ids scope) (Sound ids scope) (Evolves ids) φ p w)
    (hf : ∀ a w', Sound ids scope w' → Evolves ids w w' → φ a w' →
      Ensures (answers ids scope) (Sound ids scope) (Evolves ids) ψ (f a) w') :
    Ensures (answers ids scope) (Sound ids scope) (Evolves ids) ψ (p >>= f) w :=
  Ensures.bind (fun _ _ _ => Evolves.trans) hp hf

theorem ensures_pure {a : α} (hw : Sound ids scope w) (h : φ a w) :
    Ensures (answers ids scope) (Sound ids scope) (Evolves ids) φ (pure a : Method U α) w :=
  Ensures.pure (Evolves.refl ids) hw h

theorem ensures_throw {e : Fault} (hw : Sound ids scope w) :
    Ensures (answers ids scope) (Sound ids scope) (Evolves ids) φ (throw e : Method U α) w :=
  Ensures.throw (Evolves.refl ids) hw

theorem ensures_lift {result : Except PlanningError α} (hw : Sound ids scope w)
    (h : ∀ a, result = .ok a → φ a w) :
    Ensures (answers ids scope) (Sound ids scope) (Evolves ids) φ (Method.lift result : Method U α) w := by
  cases result with
  | ok a => exact ensures_pure hw (h a rfl)
  | error e => exact ensures_throw hw

theorem ensures_sanitize (hp : Ensures (answers ids scope) (Sound ids scope) (Evolves ids) φ p w) :
    Ensures (answers ids scope) (Sound ids scope) (Evolves ids) φ (sanitize p) w :=
  Ensures.handle (fun _ _ _ => Evolves.trans) hp fun _ _ hw' _ => ensures_throw hw'

end

/-- The manifest that is read is registered. -/
theorem ensures_manifest (hc : ids.CollisionFree) (generation : U) (compatible : Bool) :
    Ensures (answers ids scope) (Sound ids scope) (Evolves ids)
      (fun m w' => Registered w' m ∧ m.generation = generation)
      (manifest encoder scope generation compatible) w := by
  refine ensures_sanitize (ensures_bind (φ := fun a w' => ∃ row,
    w'.authority.candidate? generation = some row ∧ a.1 = row.manifest) ?_ ?_)
  · refine ensures_perform (e := .candidate generation) hc (fun _ _ _ => trivial) ?_
    rintro w' a w'' - - - - ⟨rfl, ha⟩
    obtain ⟨row, hrow, rfl⟩ := ha a rfl
    exact ⟨row, hrow, rfl⟩
  rintro ⟨ref, state, base⟩ w₁ - - ⟨row, hrow, rfl⟩
  refine ensures_bind (φ := fun m w' => ∃ row', w'.authority.candidate? generation = some row' ∧
    w'.objects.get? row'.manifest.key = some (row'.manifest, m)) ?_ ?_
  · refine ensures_perform (e := .read row.manifest) hc (fun _ _ _ => trivial) ?_
    rintro w' m w'' - hlater - - ⟨rfl, hm⟩
    -- the candidate still has this manifest
    obtain ⟨row', hrow', hsame⟩ := hlater.candidate generation row hrow
    exact ⟨row', hrow', by rw [hsame]; exact hm m rfl⟩
  · rintro m w₂ hw₂ - ⟨row', hrow', hobject⟩
    split
    · exact ensures_throw hw₂
    · next hcheck =>
      simp only [Bool.or_eq_true, not_or, decide_eq_true_eq, not_not, ne_eq] at hcheck
      obtain rfl := hcheck.1.1.2
      exact ensures_pure hw₂ ⟨⟨row', hrow', hobject⟩, rfl⟩

theorem ensures_expectedRecords (hc : ids.CollisionFree) (d : Planning.AcceptedDocument U) :
    Ensures (answers ids scope) (Sound ids scope) (Evolves ids) (fun _ _ => True)
      (expectedRecords ids encoder d) w := by
  refine ensures_bind (ensures_reads (e := .accepted d.jobId) hc fun _ => trivial) fun a w₁ hw₁ _ _ => ?_
  split
  · exact ensures_throw hw₁
  · exact ensures_lift hw₁ fun _ _ => trivial

/-- A generation that was validated as a whole has all its rows, from then on. -/
theorem ensures_validate (hc : ids.CollisionFree) (hw : Sound ids scope w) (generation : U) (sparse : Bool)
    (documentIds : Option (List U)) (pinned : Option (Planning.PublicationManifest U)) :
    Ensures (answers ids scope) (Sound ids scope) (Evolves ids)
      (fun m w' => pinned = none → documentIds = none →
        Registered w' m ∧ m.generation = generation ∧ Present ids w' m)
      (validate ids encoder scope generation sparse documentIds pinned) w := by
  refine ensures_sanitize (ensures_bind (φ := fun m w' => pinned = none →
    Registered w' m ∧ m.generation = generation) ?_ fun m w₁ hw₁ _ hm => ?_)
  · cases pinned with
    | some m => exact ensures_pure hw fun h => by cases h
    | none => exact Ensures.weaken (fun _ _ _ _ h _ => h) (ensures_manifest hc generation true)
  split
  · exact ensures_throw hw₁
  dsimp only
  split
  · exact ensures_throw hw₁
  refine ensures_bind (Ensures.mapEach (Evolves.refl ids) (fun _ _ _ => Evolves.trans) hw₁
    fun d _ w' _ _ => ensures_expectedRecords hc d) fun expected w₂ hw₂ h₂ _ => ?_
  split
  · exact ensures_throw hw₂
  refine ensures_bind (φ := fun rows w' => ∃ w'', Sound ids scope w'' ∧ Evolves ids w₂ w'' ∧
    Evolves ids w'' w' ∧ rows.Perm ((w''.vectors.map Prod.snd).filter (VectorDocument.matches
      (some ⟨ids.uuidStr generation, (documentIds.getD []).map ids.uuidStr⟩)))) ?_ ?_
  · refine ensures_perform (e := .listDocuments _) hc (fun _ _ _ => trivial) ?_
    rintro w' rows w'' hw' hlater - hsame ⟨rfl, hrows⟩
    exact ⟨w'', hw', hlater, hsame, hrows rows rfl⟩
  rintro rows w₃ hw₃ h₃ ⟨w', hw', h', hlater, hrows⟩
  split
  · exact ensures_throw hw₃
  next hinventory =>
  have hgoal : ∀ w'', Evolves ids w₃ w'' → pinned = none → documentIds = none →
      Registered w'' m ∧ m.generation = generation ∧ Present ids w'' m := by
    rintro w'' hlast hpinned rfl
    obtain ⟨hregistered, rfl⟩ := hm hpinned
    have hm' := (hregistered.later h₂).later h'
    have hall : m.records.filter (fun r => (m.documents.map fun d => d.documentId).contains r.documentId)
        = m.records := by
      refine List.filter_eq_self.mpr fun r hr => ?_
      rw [List.contains_iff_mem]
      exact document_known (hw₁.valid hregistered) hr
    rw [Bool.not_eq_true, Bool.not_eq_false', Option.getD_none, hall] at hinventory
    have hpresent := present_of_matches hc hw' hm' hrows hinventory
    exact ⟨(hm'.later hlater).later hlast, rfl, hlast.present m (hm'.later hlater) (hlater.present m hm' hpresent)⟩
  refine ensures_bind (φ := fun _ _ => True) ?_ fun _ w₄ hw₄ h₄ _ => ensures_pure hw₄ (hgoal w₄ h₄)
  split
  · exact ensures_reads (e := .index m) hc fun _ => trivial
  · exact ensures_pure hw₃ trivial

theorem ensures_plannedJob (hc : ids.CollisionFree) (jobId : U) :
    Ensures (answers ids scope) (Sound ids scope) (Evolves ids) (fun _ _ => True)
      (plannedJob ids encoder jobId) w := by
  refine ensures_bind (ensures_reads (e := .accepted jobId) hc fun _ => trivial) fun a w₁ hw₁ _ _ => ?_
  exact ensures_bind (φ := fun _ _ => True) (ensures_lift hw₁ fun _ _ => trivial)
    fun _ w₂ hw₂ _ _ => ensures_pure hw₂ trivial

/-- What is planned is valid. -/
theorem ensures_planned (hc : ids.CollisionFree) (hw : Sound ids scope w) (jobIds : List U)
    (base : ActivePublication U) (previous : Option (Planning.PublicationManifest U)) :
    Ensures (answers ids scope) (Sound ids scope) (Evolves ids) (fun m _ => m.valid ids = true)
      (planned ids encoder scope jobIds base previous) w := by
  refine ensures_bind (Ensures.mapEach (Evolves.refl ids) (fun _ _ _ => Evolves.trans) hw
    fun jobId _ w' _ _ => ensures_plannedJob hc jobId) fun all w₁ hw₁ _ _ => ensures_lift hw₁ fun m hm => ?_
  unfold manifestValues at hm
  simp only at hm
  split at hm
  · next hvalid =>
    obtain rfl := Except.ok.inj hm
    exact hvalid
  · cases hm

theorem ensures_plan (hc : ids.CollisionFree) (jobIds : List U) :
    Ensures (answers ids scope) (Sound ids scope) (Evolves ids) (fun _ _ => True)
      (plan ids encoder scope jobIds) w := by
  refine ensures_bind (ensures_reads (e := .manage) hc fun _ => trivial) fun _ w₁ hw₁ _ _ => ?_
  refine ensures_bind (ensures_reads (e := .active) hc fun _ => trivial) fun base w₂ hw₂ _ _ => ?_
  refine ensures_bind (φ := fun _ _ => True) ?_ fun previous w₃ hw₃ _ _ => ?_
  · unfold previousManifest
    cases base.generation with
    | none => exact ensures_pure hw₂ trivial
    | some generation =>
      exact ensures_bind (ensures_manifest hc generation false) fun _ w' hw' _ _ => ensures_pure hw' trivial
  refine ensures_bind (ensures_planned hc hw₃ jobIds base previous) fun candidate w₄ hw₄ _ hvalid => ?_
  split
  · next previous _ =>
    exact ensures_bind (ensures_validate hc hw₄ _ _ _ _) fun _ w₅ hw₅ _ _ => ensures_pure hw₅ trivial
  · refine ensures_bind (ensures_reads (e := .inventory) hc fun _ => trivial) fun inventory w₅ hw₅ _ _ => ?_
    split
    · exact Ensures.weaken (fun _ _ _ _ _ => trivial) (ensures_manifest hc _ true)
    -- what is registered was stored before
    refine ensures_bind (φ := fun ref w' => ref = manifestRef ids scope candidate ∧
      ∃ stored, w'.objects.get? ref.key = some (ref, stored)) ?_ fun ref w₆ hw₆ _ href => ?_
    · exact ensures_perform (e := .put candidate) hc (fun _ _ _ => hvalid)
        fun w' ref w'' _ _ _ _ hr => hr.2 ref rfl
    · obtain ⟨rfl, stored, hstored⟩ := href
      refine ensures_bind (φ := fun _ _ => True) ?_ fun _ w₇ hw₇ _ _ => ensures_pure hw₇ trivial
      refine ensures_perform (e := .register candidate _) hc (fun w' _ hlater => ?_)
        fun _ _ _ _ _ _ _ _ => trivial
      have href := (hw₆.stored _ _ _ hstored).1.symm
      exact ⟨stored, hlater.objects _ _ hstored, generation_of_ref hc href, base_of_ref hc href⟩

theorem ensures_writeRecord (hc : ids.CollisionFree) (hm : Registered w m) {r : Planning.RetrievalRecord U}
    (hr : r ∈ m.records) :
    Ensures (answers ids scope) (Sound ids scope) (Evolves ids) (fun _ _ => True)
      (writeRecord ids m.generation m r) w := by
  refine ensures_bind (ensures_reads (e := .manage) hc fun _ => trivial) fun _ w₁ hw₁ h₁ _ => ?_
  refine ensures_bind (ensures_reads (e := .embed r.text) hc fun _ => trivial) fun _ w₂ hw₂ h₂ _ => ?_
  refine ensures_bind (φ := fun _ _ => True) ?_ fun _ w₃ hw₃ _ _ =>
    ensures_reads (e := .checkpoint _) hc fun _ => trivial
  exact ensures_perform (e := .upsert _ _) hc
    (fun w' _ hlater => ⟨m, r, ((hm.later h₁).later h₂).later hlater, hr, rfl, rfl⟩)
    fun _ _ _ _ _ _ _ _ => trivial

theorem ensures_writeAll (hc : ids.CollisionFree) (hm : Registered w m) :
    Ensures (answers ids scope) (Sound ids scope) (Evolves ids) (fun _ _ => True)
      (writeAll ids encoder scope m.generation m) w := by
  refine ensures_bind (ensures_reads (e := .checkpoint _) hc fun _ => trivial) fun _ w₁ hw₁ h₁ _ => ?_
  refine ensures_bind (Ensures.forEach (Evolves.refl ids) (fun _ _ _ => Evolves.trans) hw₁
    fun r hr w' _ h' => ensures_writeRecord hc ((hm.later h₁).later h') hr) fun _ w₂ hw₂ _ _ => ?_
  refine ensures_bind (ensures_reads (e := .checkpoint _) hc fun _ => trivial) fun _ w₃ hw₃ _ _ => ?_
  refine ensures_bind (ensures_validate hc hw₃ _ _ _ _) fun n w₄ hw₄ _ hn => ?_
  obtain ⟨hregistered, hgeneration, hpresent⟩ := hn rfl rfl
  refine ensures_bind (ensures_reads (e := .checkpoint _) hc fun _ => trivial) fun _ w₅ hw₅ h₅ _ => ?_
  refine ensures_bind (φ := fun _ _ => True) ?_ fun _ w₆ hw₆ _ _ => ensures_pure hw₆ trivial
  -- the rows that were validated are still there
  exact ensures_perform (e := .mark _ .ready none) hc (fun w' _ hlater _ => ⟨n, hgeneration,
    (hregistered.later h₅).later hlater, hlater.present n (hregistered.later h₅)
      (h₅.present n hregistered hpresent)⟩) fun _ _ _ _ _ _ _ _ => trivial

/-- A mark that does not make a candidate ready. -/
theorem ensures_mark (hc : ids.CollisionFree) (generation : U) {state : CandidateState} (error : Option Str)
    (hstate : state ≠ .ready) :
    Ensures (answers ids scope) (Sound ids scope) (Evolves ids) (fun _ _ => True)
      (mark generation state error) w :=
  ensures_perform (e := .mark generation state error) hc (fun _ _ _ h => absurd h hstate)
    fun _ _ _ _ _ _ _ _ => trivial

theorem ensures_prepare (hc : ids.CollisionFree) (generation : U) :
    Ensures (answers ids scope) (Sound ids scope) (Evolves ids) (fun _ _ => True)
      (prepare ids encoder scope generation) w := by
  refine ensures_bind (ensures_reads (e := .manage) hc fun _ => trivial) fun _ w₁ hw₁ _ _ => ?_
  refine ensures_bind (ensures_manifest hc generation true) fun m w₂ hw₂ _ hm => ?_
  obtain ⟨hm, rfl⟩ := hm
  refine ensures_bind (ensures_reads (e := .candidate _) hc fun _ => trivial) ?_
  rintro ⟨ref, state, base⟩ w₃ hw₃ h₃ -
  dsimp only
  split
  · exact Ensures.weaken (fun _ _ _ _ _ => trivial) (ensures_validate hc hw₃ _ _ _ _)
  refine ensures_bind (ensures_reads (e := .active) hc fun _ => trivial) fun active w₄ hw₄ h₄ _ => ?_
  split
  · exact ensures_bind (ensures_mark hc _ none (by simp)) fun _ w₅ hw₅ _ _ => ensures_throw hw₅
  · refine Ensures.handle (fun _ _ _ => Evolves.trans)
      (ensures_writeAll hc ((hm.later h₃).later h₄)) fun _ w₅ hw₅ _ => ?_
    exact ensures_bind (ensures_mark hc _ _ (by simp)) fun _ w₆ hw₆ _ _ => ensures_throw hw₆

theorem ensures_switch (hc : ids.CollisionFree) (generation : U) (expected : ActivePublication U)
    (operation : Operation) :
    Ensures (answers ids scope) (Sound ids scope) (Evolves ids) (fun _ _ => True)
      (switch generation expected operation) w := by
  refine ensures_bind (ensures_reads (e := .checkpoint _) hc fun _ => trivial) fun _ w₁ hw₁ _ _ => ?_
  refine ensures_bind (ensures_reads (e := .manage) hc fun _ => trivial) fun _ w₂ hw₂ _ _ => ?_
  refine ensures_bind (ensures_reads (e := .activate generation expected operation) hc fun _ => trivial)
    fun result w₃ hw₃ _ _ => ?_
  exact ensures_bind (ensures_reads (e := .checkpoint _) hc fun _ => trivial)
    fun _ w₄ hw₄ _ _ => ensures_pure hw₄ trivial

theorem ensures_activate (hc : ids.CollisionFree) (generation : U) :
    Ensures (answers ids scope) (Sound ids scope) (Evolves ids) (fun _ _ => True)
      (activate ids encoder scope generation) w := by
  refine ensures_bind (ensures_reads (e := .manage) hc fun _ => trivial) fun _ w₁ hw₁ _ _ => ?_
  refine ensures_bind (ensures_validate hc hw₁ _ _ _ _) fun _ w₂ hw₂ _ _ => ?_
  refine ensures_bind (ensures_reads (e := .candidate _) hc fun _ => trivial) ?_
  exact fun a w₃ _ _ _ => ensures_switch hc generation a.2.2 .forward

theorem ensures_rollback (hc : ids.CollisionFree) (generation : U) (expected : ActivePublication U) :
    Ensures (answers ids scope) (Sound ids scope) (Evolves ids) (fun _ _ => True)
      (rollback ids encoder scope generation expected) w := by
  refine ensures_bind (ensures_reads (e := .manage) hc fun _ => trivial) fun _ w₁ hw₁ _ _ => ?_
  exact ensures_bind (ensures_validate hc hw₁ _ _ _ _) fun _ _ _ _ _ => ensures_switch hc generation _ _

theorem ensures_revoke (hc : ids.CollisionFree) (documentIds : List U) :
    Ensures (answers ids scope) (Sound ids scope) (Evolves ids) (fun _ _ => True)
      (revoke ids encoder scope documentIds) w := by
  refine ensures_bind (ensures_reads (e := .manage) hc fun _ => trivial) fun _ w₁ hw₁ _ _ => ?_
  refine ensures_bind (ensures_reads (e := .active) hc fun _ => trivial) fun active w₂ hw₂ _ _ => ?_
  split
  · exact ensures_throw hw₂
  refine ensures_bind (ensures_manifest hc _ true) fun current w₃ hw₃ _ _ => ?_
  split
  · exact ensures_throw hw₃
  · refine ensures_bind (ensures_plan hc _) fun candidate w₄ hw₄ _ _ => ?_
    exact ensures_bind (ensures_prepare hc _) fun _ _ _ _ _ => ensures_activate hc _

theorem ensures_reconcile (hc : ids.CollisionFree) :
    Ensures (answers ids scope) (Sound ids scope) (Evolves ids) (fun _ _ => True)
      (reconcile ids encoder scope) w := by
  refine ensures_bind (ensures_reads (e := .manage) hc fun _ => trivial) fun _ w₁ hw₁ _ _ => ?_
  refine ensures_bind (ensures_reads (e := .inventory) hc fun _ => trivial) fun inventory w₂ hw₂ _ _ => ?_
  refine ensures_bind (ensures_reads (e := .listDocuments none) hc fun _ => trivial) fun rows w₃ hw₃ _ _ => ?_
  refine ensures_bind (ensures_reads (e := .active) hc fun _ => trivial) fun active w₄ hw₄ _ _ => ?_
  refine ensures_bind (φ := fun _ _ => True) ?_ fun _ w₅ hw₅ _ _ => ?_
  · cases active.generation with
    | none => exact ensures_pure hw₄ trivial
    | some generation =>
      exact ensures_bind (ensures_validate hc hw₄ _ _ _ _) fun _ w' hw' _ _ => ensures_pure hw' trivial
  · refine ensures_bind (φ := fun _ _ => True) ?_ fun _ w₆ hw₆ _ _ => ensures_pure hw₆ trivial
    cases sortedOrphans ((rows.map fun row => row.metadata.get? "generation".toList).dedup.filter
        fun g => !inventory.any fun k => g == some (Scalar.str (ids.uuidStr k.1))) with
    | ok orphans => exact ensures_pure hw₅ trivial
    | error e => exact ensures_throw hw₅

theorem ensures_handler (hc : ids.CollisionFree) (generation : U) (jobScope : Scope U) (step : Jobs.StepSpec) :
    Ensures (answers ids scope) (Sound ids scope) (Evolves ids) (fun _ _ => True)
      (handler ids encoder scope generation jobScope step) w := by
  refine ensures_bind (ensures_manifest hc generation true) fun m w₁ hw₁ _ hm => ?_
  split
  · exact ensures_throw hw₁
  refine ensures_bind (ensures_prepare hc generation) fun _ w₂ hw₂ _ _ => ?_
  -- the manifest that is put again is valid, as it was read
  exact ensures_perform (e := .put m) hc (fun _ _ _ => hw₁.valid hm.1) fun _ _ _ _ _ _ _ _ => trivial

/-! ### Every reachable state -/

/-- Whatever a caller starts keeps the invariant. -/
theorem starts_safe (hc : ids.CollisionFree) {p : Method U PUnit} (hp : Starts ids encoder scope p)
    (hw : Sound ids scope w) :
    Safe (answers ids scope) (Sound ids scope) (Evolves ids) (fun _ _ => True) p w := by
  have hforget : ∀ {α : Type} {φ : α → World U → Prop} {q : Method U α},
      Ensures (answers ids scope) (Sound ids scope) (Evolves ids) φ q w →
        Safe (answers ids scope) (Sound ids scope) (Evolves ids) (fun _ _ => True) (forget q) w := by
    intro α φ q hq
    have hall := ensures_bind (ψ := fun _ _ => True) (f := fun _ => pure PUnit.unit) hq
      fun _ _ hw' _ _ => ensures_pure hw' trivial
    exact Safe.weaken (fun _ _ _ => trivial) hall
  cases hp with
  | validate generation sparse documentIds pinned =>
    exact hforget (ensures_validate hc hw generation sparse documentIds pinned)
  | plan jobIds => exact hforget (ensures_plan hc jobIds)
  | prepare generation => exact hforget (ensures_prepare hc generation)
  | activate generation => exact hforget (ensures_activate hc generation)
  | rollback generation expected => exact hforget (ensures_rollback hc generation expected)
  | revoke documentIds => exact hforget (ensures_revoke hc documentIds)
  | reconcile => exact hforget (ensures_reconcile hc)
  | handler generation jobScope step => exact hforget (ensures_handler hc generation jobScope step)

theorem sound_initial : Sound ids scope (World.initial [] : World U) := by
  refine ⟨Authority.Linear.empty, List.nodup_nil, ?_, ?_, ?_, ?_, ?_⟩
  · intro key ref m h
    cases h
  · intro generation row h
    cases h
  · intro id row h
    cases h
  · rintro m row ⟨_, h, -⟩
    cases h
  · rintro m row ⟨_, h, -⟩
    cases h

/-- A state of the service, after any interleaving of what its callers started. -/
def Reachable (ids : Ids U) (encoder : RetrievalEncoder) (scope : Scope U) (w : World U) : Prop :=
  ∃ running, Relation.ReflTransGen
    (PoolStep (answers ids scope) (Starts ids encoder scope) (foreign ids)) (World.initial [], [])
    (w, running)

theorem Reachable.sound (hc : ids.CollisionFree) (h : Reachable ids encoder scope w) :
    Sound ids scope w := by
  obtain ⟨running, h⟩ := h
  exact (pool_safe (Evolves.refl ids) (fun _ _ _ => Evolves.trans) (fun _ _ _ _ h => h)
    (fun p hp w hw => starts_safe hc hp hw) (fun w w' hw => sound_foreign hw) sound_initial h).1

/-- The active generation is accepted. -/
theorem Sound.active_accepted (hw : Sound ids scope w) {generation : U}
    (h : w.authority.active.generation = some generation) :
    ∃ row, w.authority.candidate? generation = some row ∧ row.state = .accepted := by
  have hlast := Authority.path_last hw.linear.path
  cases hrow : w.authority.activations.getLast? with
  | none =>
    rw [hrow] at hlast
    rw [hlast] at h
    cases h
  | some event =>
    rw [hrow] at hlast
    rw [hlast] at h
    obtain rfl := Option.some.inj h
    obtain ⟨c, hmem, hgeneration, hstate, -⟩ := hw.linear.accepted event (List.mem_of_getLast? hrow)
    exact ⟨c, hw.linear.candidate?_iff.mpr ⟨hmem, hgeneration⟩, hstate⟩

end Service

end Polymind.Publication
