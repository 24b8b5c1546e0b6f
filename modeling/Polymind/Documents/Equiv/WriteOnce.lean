import Polymind.Documents.Storage
import Mathlib.Data.List.Count
import Mathlib.Data.List.Nodup

/-!
# The object store is write-once

* `Inv`: what holds in every state of every trace; `inv_next`: every event keeps it;
* `write_once`: the bytes under a final name never change, whatever puts, reads and crashes do.
-/

namespace Polymind.Storage

variable {U I : Type} {env : StoreEnv U} {d d' : Disk U I} {w : World U I} {put file : I} {key : U}

/-! ### The invariant -/

/-- A final name whose file has no other name, and will not get one. -/
structure Settled (d : Disk U I) (key : U) (file : I) : Prop where
  linked : (.final key, file) ∈ d.entries
  alone : ∀ f, (.pending file, f) ∉ d.entries

/-- The bytes have the length and the digest of the reference. -/
def Matches (env : StoreEnv U) (ref : ObjectRef U) (data : Bytes) : Prop :=
  data.length = ref.byteSize ∧ env.hexdigest data = ref.sha256

theorem matches_ref (args : PutArgs U) (data : Bytes) : Matches env (args.ref env data) data :=
  ⟨rfl, rfl⟩

/-- The final name of a `_read` that has found it, and the bytes read so far. -/
def ReadOk (d : Disk U I) (ref : ObjectRef U) : ReadAt I → Prop
  | .opening => True
  | .stating file => (.final ref.key, file) ∈ d.entries
  | .fetching file data => Settled d ref.key file ∧ data <+: d.content file

/-- The object of the reference is there to stay. -/
def Published (env : StoreEnv U) (d : Disk U I) (ref : ObjectRef U) : Prop :=
  ∃ file, Settled d ref.key file ∧ Matches env ref (d.content file)

/-- What a `put` relies on, at each of its steps. -/
def PutOk (env : StoreEnv U) (d : Disk U I) (put : I) (args : PutArgs U) : PutAt U I → Prop
  | .directory | .create => ∀ f, (.pending put, f) ∉ d.entries
  | .copy data | .sync data => (.pending put, put) ∈ d.entries ∧ d.content put = data
  | .link ref => (.pending put, put) ∈ d.entries ∧ ref = args.ref env (d.content put)
  | .verify ref reading =>
    (.pending put, put) ∈ d.entries ∧ ref = args.ref env (d.content put) ∧ ReadOk d ref reading
  | .unlink ref => (.pending put, put) ∈ d.entries ∧ ref = args.ref env (d.content put) ∧
      ((.final ref.key, put) ∈ d.entries ∨ Published env d ref)
  | .syncDirectory ref | .cleanup (.ok ref) | .finished (.ok ref) =>
    (∀ f, (.pending put, f) ∉ d.entries) ∧ ref = args.ref env (d.content put) ∧
      Published env d ref
  | .cleanup (.error _) => True
  | .finished (.error _) => ∀ f, (.pending put, f) ∉ d.entries

def AccessOk (env : StoreEnv U) (d : Disk U I) (args : ReadArgs U) : AccessAt I → Prop
  | .directory => True
  | .reading reading => ReadOk d args.ref reading
  | .finished (.ok data) => ∃ file, Settled d args.ref.key file ∧
      Matches env args.ref (d.content file) ∧
      data = if args.collect then d.content file else []
  | .finished (.error _) => True

def ProcOk (env : StoreEnv U) (d : Disk U I) (i : I) : Proc U I → Prop
  | .idle => ∀ f, (.pending i, f) ∉ d.entries
  | .put args phase => PutOk env d i args phase
  | .read args phase => (∀ f, (.pending i, f) ∉ d.entries) ∧ AccessOk env d args phase

/-- The phases from `os.unlink` on: the `put` creates, writes and links no more. -/
def PutAt.late : PutAt U I → Bool
  | .unlink _ | .syncDirectory _ | .cleanup _ | .finished _ => true
  | _ => false

def Proc.late : Proc U I → Bool
  | .put _ phase => phase.late
  | _ => false

/-- What holds in every state of every trace. -/
structure Inv (env : StoreEnv U) (w : World U I) : Prop where
  names : (w.disk.entries.map Prod.fst).Nodup
  own : ∀ i f, (.pending i, f) ∈ w.disk.entries → f = i
  linked : ∀ key f, (.final key, f) ∈ w.disk.entries →
    ∃ args phase, w.procs f = .put args phase ∧ phase.late = true ∧ args.key env = key
  procs : ∀ i, ProcOk env w.disk i (w.procs i)

theorem Inv.empty : Inv env (World.empty : World U I) := by
  refine ⟨List.nodup_nil, ?_, ?_, ?_⟩
  · intro i f hf
    cases hf
  · intro key f hf
    cases hf
  · intro i f hf
    cases hf

/-! ### What a step leaves alone -/

/-- What the step of a `put` leaves alone in the directory. -/
structure Frame (put : I) (late : Bool) (d d' : Disk U I) : Prop where
  pending : ∀ j ≠ put, ∀ f, (.pending j, f) ∈ d'.entries ↔ (.pending j, f) ∈ d.entries
  content : ∀ j ≠ put, d'.content j = d.content j
  final : ∀ key f, (.final key, f) ∈ d.entries → (.final key, f) ∈ d'.entries
  linked : ∀ key, ∀ f ≠ put, (.final key, f) ∈ d'.entries → (.final key, f) ∈ d.entries
  sealed : late = true → d'.content put = d.content put ∧
    ∀ f, (.pending put, f) ∈ d'.entries → (.pending put, f) ∈ d.entries

theorem Frame.refl (put : I) (late : Bool) (d : Disk U I) : Frame put late d d :=
  ⟨fun _ _ _ => Iff.rfl, fun _ _ => rfl, fun _ _ h => h, fun _ _ _ h => h,
    fun _ => ⟨rfl, fun _ h => h⟩⟩

theorem Frame.link (put : I) (d : Disk U I) (key : U) : Frame put false d (d.link put key) := by
  refine ⟨fun j _ f => ?_, fun _ _ => rfl, fun _ _ h => List.mem_append_left _ h,
    fun key' f hf h => ?_, fun h => nomatch h⟩
  · simp [Disk.link]
  · rcases List.mem_append.mp h with h | h
    · exact h
    · cases List.mem_singleton.mp h
      exact absurd rfl hf

section

variable {late : Bool} (hf : Frame put late d d')

include hf

theorem Settled.frame (hput : ∀ key, (.final key, put) ∈ d.entries → late = true)
    (h : Settled d key file) : Settled d' key file ∧ d'.content file = d.content file := by
  by_cases heq : file = put
  · obtain rfl := heq
    obtain ⟨hcontent, hpending⟩ := hf.sealed (hput key h.linked)
    exact ⟨⟨hf.final _ _ h.linked, fun f hmem => h.alone f (hpending f hmem)⟩, hcontent⟩
  · exact ⟨⟨hf.final _ _ h.linked, fun f hmem => h.alone f ((hf.pending file heq f).mp hmem)⟩,
      hf.content file heq⟩

theorem Published.frame (hput : ∀ key, (.final key, put) ∈ d.entries → late = true)
    {ref : ObjectRef U} (h : Published env d ref) : Published env d' ref := by
  obtain ⟨file, hs, hm⟩ := h
  obtain ⟨hs', hcontent⟩ := hs.frame hf hput
  exact ⟨file, hs', hcontent ▸ hm⟩

theorem ReadOk.frame (hput : ∀ key, (.final key, put) ∈ d.entries → late = true)
    {ref : ObjectRef U} {reading : ReadAt I} (h : ReadOk d ref reading) : ReadOk d' ref reading := by
  cases reading with
  | opening => trivial
  | stating file => exact hf.final _ _ h
  | fetching file data =>
    obtain ⟨hs', hcontent⟩ := h.1.frame hf hput
    exact ⟨hs', hcontent ▸ h.2⟩

/-- The step of a `put` leaves what every other process relies on. -/
theorem ProcOk.frame (hput : ∀ key, (.final key, put) ∈ d.entries → late = true) {j : I}
    (hj : j ≠ put) {p : Proc U I} (h : ProcOk env d j p) : ProcOk env d' j p := by
  have hnone : (∀ f, (.pending j, f) ∉ d.entries) → ∀ f, (.pending j, f) ∉ d'.entries :=
    fun h f hmem => h f ((hf.pending j hj f).mp hmem)
  have hhas : (.pending j, j) ∈ d.entries → (.pending j, j) ∈ d'.entries := (hf.pending j hj j).mpr
  have hcontent := hf.content j hj
  cases p with
  | idle => exact hnone h
  | put args phase =>
    cases phase with
    | directory => exact hnone h
    | create => exact hnone h
    | copy data => exact ⟨hhas h.1, hcontent.trans h.2⟩
    | sync data => exact ⟨hhas h.1, hcontent.trans h.2⟩
    | link ref => exact ⟨hhas h.1, hcontent ▸ h.2⟩
    | verify ref reading => exact ⟨hhas h.1, hcontent ▸ h.2.1, h.2.2.frame hf hput⟩
    | unlink ref =>
      refine ⟨hhas h.1, hcontent ▸ h.2.1, ?_⟩
      rcases h.2.2 with hown | hpub
      · exact Or.inl (hf.final _ _ hown)
      · exact Or.inr (hpub.frame hf hput)
    | syncDirectory ref => exact ⟨hnone h.1, hcontent ▸ h.2.1, h.2.2.frame hf hput⟩
    | cleanup outcome =>
      cases outcome with
      | error e => trivial
      | ok ref => exact ⟨hnone h.1, hcontent ▸ h.2.1, h.2.2.frame hf hput⟩
    | finished outcome =>
      cases outcome with
      | error e => exact hnone h
      | ok ref => exact ⟨hnone h.1, hcontent ▸ h.2.1, h.2.2.frame hf hput⟩
  | read args phase =>
    refine ⟨hnone h.1, ?_⟩
    cases phase with
    | directory => trivial
    | reading reading => exact h.2.frame hf hput
    | finished outcome =>
      cases outcome with
      | error e => trivial
      | ok data =>
        obtain ⟨file, hs, hm, hdata⟩ := h.2
        obtain ⟨hs', hcontent⟩ := hs.frame hf hput
        exact ⟨file, hs', hcontent ▸ hm, hcontent ▸ hdata⟩

end

/-! ### Lookups and changes -/

section

variable [DecidableEq I]

theorem Frame.create (put : I) (d : Disk U I) : Frame put false d (d.create put) := by
  refine ⟨fun j hj f => ?_, fun j hj => ?_, fun key f h => ?_, fun key f _ h => ?_, fun h => nomatch h⟩
  · simp [Disk.create, hj]
  · exact Function.update_of_ne hj _ _
  · exact List.mem_append_left _ h
  · simpa [Disk.create] using h

theorem Frame.write (put : I) (d : Disk U I) (chunk : Bytes) :
    Frame put false d (d.write put chunk) :=
  ⟨fun _ _ _ => Iff.rfl, fun _ hj => Function.update_of_ne hj _ _, fun _ _ h => h,
    fun _ _ _ h => h, fun h => nomatch h⟩

end

variable [DecidableEq U] [DecidableEq I]

theorem Disk.mem_unlink {name n : Name U I} {f : I} :
    (n, f) ∈ (d.unlink name).entries ↔ (n, f) ∈ d.entries ∧ n ≠ name := by
  simp [Disk.unlink]

theorem Frame.unlink (put : I) (late : Bool) (d : Disk U I) :
    Frame put late d (d.unlink (.pending put)) := by
  refine ⟨fun j hj f => ?_, fun _ _ => rfl, fun key f h => ?_, fun key f _ h => ?_,
    fun _ => ⟨rfl, fun f h => ?_⟩⟩
  · rw [Disk.mem_unlink, and_iff_left]
    exact fun heq => hj (Name.pending.inj heq)
  · exact Disk.mem_unlink.mpr ⟨h, fun heq => nomatch heq⟩
  · exact (Disk.mem_unlink.mp h).1
  · exact (Disk.mem_unlink.mp h).1

theorem Disk.find?_eq_none {name : Name U I} :
    d.find? name = none ↔ ∀ f, (name, f) ∉ d.entries := by
  unfold Disk.find?
  rw [Option.map_eq_none_iff, List.find?_eq_none]
  constructor
  · exact fun h f hf => h (name, f) hf (decide_eq_true rfl)
  · rintro h ⟨n, f⟩ hf hn
    exact h f (of_decide_eq_true hn ▸ hf)

theorem Disk.mem_of_find? {name : Name U I} {f : I} (h : d.find? name = some f) :
    (name, f) ∈ d.entries := by
  unfold Disk.find? at h
  obtain ⟨⟨n, g⟩, hg, rfl⟩ := Option.map_eq_some_iff.mp h
  have hname : n = name := by simpa using List.find?_some hg
  exact hname ▸ List.mem_of_find?_eq_some hg

/-- Where names are unique, a lookup finds every entry. -/
theorem Disk.find?_of_mem (hnd : (d.entries.map Prod.fst).Nodup) {name : Name U I} {f : I}
    (h : (name, f) ∈ d.entries) : d.find? name = some f := by
  cases hf : d.find? name with
  | none => exact absurd h (Disk.find?_eq_none.mp hf f)
  | some g =>
    have heq := List.inj_on_of_nodup_map hnd (Disk.mem_of_find? hf) h rfl
    exact congrArg (fun entry => some entry.2) heq

/-- The bytes under a final name. -/
def Disk.object? (d : Disk U I) (key : U) : Option Bytes := (d.find? (.final key)).map d.content

/-! ### The steps -/

omit [DecidableEq U] in
/-- A final name whose file has one link: the `put` that linked it has removed its temporary. -/
theorem settled_of_nlink (hown : ∀ i f, (.pending i, f) ∈ d.entries → f = i)
    (h : (.final key, file) ∈ d.entries) (hone : d.nlink file = 1) : Settled d key file := by
  refine ⟨h, fun f hf => ?_⟩
  obtain rfl := hown file f hf
  rw [Disk.nlink, List.countP_eq_length_filter, List.length_eq_one_iff] at hone
  obtain ⟨entry, hentry⟩ := hone
  have hall : ∀ name, (name, f) ∈ d.entries → (name, f) = entry := by
    intro name hmem
    have hfilter : (name, f) ∈ d.entries.filter fun entry => entry.2 = f :=
      List.mem_filter.mpr ⟨hmem, decide_eq_true rfl⟩
    rw [hentry] at hfilter
    exact List.mem_singleton.mp hfilter
  have heq := (hall _ h).trans (hall _ hf).symm
  cases congrArg Prod.fst heq

section

variable {ref : ObjectRef U} {maxBytes : Nat} {fault : Bool} {reading reading' : ReadAt I}
  {data : Bytes}

/-- A `_read` that goes on. -/
theorem readStep_goes (hown : ∀ i f, (.pending i, f) ∈ d.entries → f = i)
    (h : ReadOk d ref reading) (hstep : readStep env d ref maxBytes fault reading = .inl reading') :
    ReadOk d ref reading' := by
  cases reading with
  | opening =>
    simp only [readStep] at hstep
    split at hstep
    · cases hstep
    · split at hstep
      · cases hstep
      · rename_i file hfile
        cases hstep
        exact Disk.mem_of_find? hfile
  | stating file =>
    simp only [readStep] at hstep
    split at hstep
    · cases hstep
    · split at hstep
      · cases hstep
      · rename_i hlink
        split at hstep
        · cases hstep
        · cases hstep
          exact ⟨settled_of_nlink hown h (not_not.mp hlink), List.nil_prefix⟩
  | fetching file data =>
    simp only [readStep] at hstep
    split at hstep
    · cases hstep
    · split at hstep
      · split at hstep <;> cases hstep
      · split at hstep
        · cases hstep
        · cases hstep
          refine ⟨h.1, ?_⟩
          -- the chunk is what comes next
          obtain ⟨rest, hrest⟩ := h.2
          rw [← hrest, List.drop_left, List.prefix_append_right_inj]
          exact List.take_prefix _ _

/-- A `_read` that returns has read the object, and the object is the one of the reference. -/
theorem readStep_returns (h : ReadOk d ref reading)
    (hstep : readStep env d ref maxBytes fault reading = .inr (.ok data)) :
    ∃ file, Settled d ref.key file ∧ Matches env ref (d.content file) ∧ data = d.content file := by
  cases reading with
  | opening =>
    simp only [readStep] at hstep
    split at hstep
    · cases hstep
    · split at hstep <;> cases hstep
  | stating file =>
    simp only [readStep] at hstep
    split at hstep
    · cases hstep
    · split at hstep
      · cases hstep
      · split at hstep <;> cases hstep
  | fetching file got =>
    simp only [readStep] at hstep
    split at hstep
    · cases hstep
    · split at hstep
      · rename_i hend
        split at hstep
        · cases hstep
        · rename_i hmatch
          rw [not_or, not_not, not_not] at hmatch
          cases hstep
          -- nothing comes next
          obtain ⟨rest, hrest⟩ := h.2
          rw [← hrest, List.drop_left, List.take_eq_nil_iff] at hend
          obtain rfl : rest = [] := hend.resolve_left (by omega)
          rw [List.append_nil] at hrest
          exact ⟨file, h.1, hrest ▸ hmatch, hrest⟩
      · split at hstep <;> cases hstep

end

/-- What the step of a `put` does to the directory. -/
inductive Effect (put : I) (d : Disk U I) : PutAt U I → PutAt U I → Disk U I → Prop where
  | keeps (phase phase' : PutAt U I) (hlate : phase.late = true → phase'.late = true) :
      Effect put d phase phase' d
  | creates (hnew : d.find? (.pending put) = none) :
      Effect put d .create (.copy []) (d.create put)
  | writes (data bytes : Bytes) :
      Effect put d (.copy data) (.copy (data ++ bytes)) (d.write put bytes)
  | links (ref : ObjectRef U) (hnew : d.find? (.final ref.key) = none) :
      Effect put d (.link ref) (.unlink ref) (d.link put ref.key)
  | unlinks (ref : ObjectRef U) :
      Effect put d (.unlink ref) (.syncDirectory ref) (d.unlink (.pending put))
  | cleans (outcome : Except Raised (ObjectRef U)) :
      Effect put d (.cleanup outcome) (.finished outcome) (d.unlink (.pending put))

theorem putStep_effect (hown : ∀ i f, (.pending i, f) ∈ d.entries → f = i) (args : PutArgs U)
    (fault : Bool) (answer : Answer) (phase : PutAt U I) :
    Effect put d phase (putStep env put args fault answer d phase).2
      (putStep env put args fault answer d phase).1 := by
  cases phase with
  | directory =>
    simp only [putStep]
    split <;> exact .keeps _ _ fun h => nomatch h
  | create =>
    simp only [putStep]
    split
    · exact .keeps _ _ fun h => nomatch h
    · rename_i hnew
      rw [Bool.or_eq_true, not_or, Bool.not_eq_true, Option.not_isSome_iff_eq_none] at hnew
      exact .creates hnew.2
  | copy data =>
    simp only [putStep]
    split
    · exact .keeps _ _ fun h => nomatch h
    · exact .keeps _ _ fun h => nomatch h
    · split
      · exact .keeps _ _ fun h => nomatch h
      · split
        · exact .keeps _ _ fun h => nomatch h
        · split
          · exact .keeps _ _ fun h => nomatch h
          · exact .writes _ _
  | sync data =>
    simp only [putStep]
    split
    · exact .keeps _ _ fun h => nomatch h
    · split
      · exact .keeps _ _ fun h => nomatch h
      · split <;> exact .keeps _ _ fun h => nomatch h
  | link ref =>
    simp only [putStep]
    split
    · exact .keeps _ _ fun h => nomatch h
    · exact .keeps _ _ fun h => nomatch h
    · rename_i file hfile
      obtain rfl := hown put file (Disk.mem_of_find? hfile)
      split
      · exact .keeps _ _ fun h => nomatch h
      · rename_i hnew
        exact .links ref (Option.not_isSome_iff_eq_none.mp hnew)
  | verify ref reading =>
    simp only [putStep]
    split <;> exact .keeps _ _ fun h => nomatch h
  | unlink ref =>
    simp only [putStep]
    split
    · exact .unlinks ref
    · exact .keeps _ _ fun _ => rfl
  | syncDirectory ref =>
    simp only [putStep]
    split <;> exact .keeps _ _ fun _ => rfl
  | cleanup outcome => exact .cleans outcome
  | finished outcome => exact .keeps _ _ fun h => h

section

variable {phase phase' : PutAt U I} (he : Effect put d phase phase' d')

include he

theorem Effect.frame : Frame put phase.late d d' := by
  cases he with
  | keeps => exact Frame.refl put _ d
  | creates hnew => exact Frame.create put d
  | writes data bytes => exact Frame.write put d bytes
  | links ref hnew => exact Frame.link put d ref.key
  | unlinks ref => exact Frame.unlink put _ d
  | cleans outcome => exact Frame.unlink put _ d

theorem Effect.names (hnd : (d.entries.map Prod.fst).Nodup) : (d'.entries.map Prod.fst).Nodup := by
  have hadd : ∀ {name : Name U I} {f : I}, d.find? name = none →
      ((d.entries ++ [(name, f)]).map Prod.fst).Nodup := by
    intro name f hnew
    rw [List.map_append, List.nodup_append]
    refine ⟨hnd, List.nodup_singleton _, fun n hn m hm heq => ?_⟩
    obtain ⟨⟨n', g⟩, hg, rfl⟩ := List.mem_map.mp hn
    obtain rfl := List.mem_singleton.mp hm
    exact Disk.find?_eq_none.mp hnew g (heq ▸ hg)
  have hfilter : ∀ name : Name U I, ((d.unlink name).entries.map Prod.fst).Nodup :=
    fun name => hnd.sublist (List.filter_sublist.map _)
  cases he with
  | keeps => exact hnd
  | creates hnew => exact hadd hnew
  | writes data bytes => exact hnd
  | links ref hnew => exact hadd hnew
  | unlinks ref => exact hfilter _
  | cleans outcome => exact hfilter _

theorem Effect.own (hown : ∀ i f, (.pending i, f) ∈ d.entries → f = i) :
    ∀ i f, (.pending i, f) ∈ d'.entries → f = i := by
  intro i f hf
  cases he with
  | keeps => exact hown i f hf
  | creates hnew =>
    rcases List.mem_append.mp hf with hf | hf
    · exact hown i f hf
    · cases List.mem_singleton.mp hf
      rfl
  | writes data bytes => exact hown i f hf
  | links ref hnew =>
    rcases List.mem_append.mp hf with hf | hf
    · exact hown i f hf
    · cases List.mem_singleton.mp hf
  | unlinks ref => exact hown i f (Disk.mem_unlink.mp hf).1
  | cleans outcome => exact hown i f (Disk.mem_unlink.mp hf).1

/-- A final name is new only if the `put` links it. -/
theorem Effect.final {f : I} (hf : (.final key, f) ∈ d'.entries) : (.final key, f) ∈ d.entries ∨
    f = put ∧ d.find? (.final key) = none ∧ ∃ ref : ObjectRef U, ref.key = key ∧
      phase = .link ref ∧ phase' = .unlink ref ∧ d'.content = d.content := by
  cases he with
  | keeps => exact Or.inl hf
  | creates hnew =>
    rcases List.mem_append.mp hf with hf | hf
    · exact Or.inl hf
    · cases List.mem_singleton.mp hf
  | writes data bytes => exact Or.inl hf
  | links ref hnew =>
    rcases List.mem_append.mp hf with hf | hf
    · exact Or.inl hf
    · cases List.mem_singleton.mp hf
      exact Or.inr ⟨rfl, hnew, ref, rfl, rfl, rfl, rfl⟩
  | unlinks ref => exact Or.inl (Disk.mem_unlink.mp hf).1
  | cleans outcome => exact Or.inl (Disk.mem_unlink.mp hf).1

theorem Effect.late (h : phase.late = true) : phase'.late = true := by
  cases he with
  | keeps _ _ hlate => exact hlate h
  | creates hnew => cases h
  | writes data bytes => cases h
  | links ref hnew => cases h
  | unlinks ref => rfl
  | cleans outcome => rfl

end

/-- Every step of a `put` establishes what the next one relies on. -/
theorem putStep_ok (hown : ∀ i f, (.pending i, f) ∈ d.entries → f = i) {args : PutArgs U}
    (fault : Bool) (answer : Answer) {phase : PutAt U I} (h : PutOk env d put args phase) :
    PutOk env (putStep env put args fault answer d phase).1 put args
      (putStep env put args fault answer d phase).2 := by
  have hgone : ∀ f, (.pending put, f) ∉ (d.unlink (.pending put)).entries :=
    fun f hf => (Disk.mem_unlink.mp hf).2 rfl
  have hframe := Frame.unlink put true d
  cases phase with
  | directory =>
    simp only [putStep]
    split <;> exact h
  | create =>
    simp only [putStep]
    split
    · trivial
    · exact ⟨List.mem_append_right _ (List.mem_singleton_self _), Function.update_self ..⟩
  | copy data =>
    simp only [putStep]
    split
    · trivial
    · trivial
    · split
      · exact h
      · split
        · trivial
        · split
          · trivial
          · refine ⟨h.1, ?_⟩
            show Function.update d.content put _ put = _
            rw [Function.update_self, h.2]
  | sync data =>
    simp only [putStep]
    split
    · trivial
    · split
      · trivial
      · split
        · exact ⟨h.1, by rw [h.2]⟩
        · trivial
  | link ref =>
    simp only [putStep]
    split
    · trivial
    · trivial
    · rename_i file hfile
      obtain rfl := hown put file (Disk.mem_of_find? hfile)
      split
      · exact ⟨h.1, h.2, trivial⟩
      · exact ⟨List.mem_append_left _ h.1, h.2,
          Or.inl (List.mem_append_right _ (List.mem_singleton_self _))⟩
  | verify ref reading =>
    simp only [putStep]
    split
    · rename_i reading' hstep
      exact ⟨h.1, h.2.1, readStep_goes hown h.2.2 hstep⟩
    · rename_i data hstep
      obtain ⟨file, hsettled, hmatch, -⟩ := readStep_returns h.2.2 hstep
      exact ⟨h.1, h.2.1, Or.inr ⟨file, hsettled, hmatch⟩⟩
    · trivial
  | unlink ref =>
    simp only [putStep]
    split
    · refine ⟨hgone, h.2.1, ?_⟩
      rcases h.2.2 with hlinked | hpub
      · -- its own temporary was the other link
        refine ⟨put, ⟨hframe.final _ _ hlinked, hgone⟩, ?_⟩
        show Matches env ref (d.content put)
        rw [h.2.1]
        exact matches_ref args _
      · exact hpub.frame hframe fun _ _ => rfl
    · trivial
  | syncDirectory ref =>
    simp only [putStep]
    split
    · trivial
    · exact h
  | cleanup outcome =>
    cases outcome with
    | error e => exact hgone
    | ok ref => exact ⟨hgone, h.2.1, h.2.2.frame hframe fun _ _ => rfl⟩
  | finished outcome => exact h

/-- Every step of a `read` establishes what the next one relies on. -/
theorem accessStep_ok (hown : ∀ i f, (.pending i, f) ∈ d.entries → f = i) {args : ReadArgs U}
    (fault : Bool) {phase : AccessAt I} (h : AccessOk env d args phase) :
    AccessOk env d args (accessStep env args fault d phase) := by
  cases phase with
  | directory =>
    simp only [accessStep]
    split <;> trivial
  | reading reading =>
    simp only [accessStep]
    split
    · rename_i reading' hstep
      exact readStep_goes hown h hstep
    · rename_i data hstep
      obtain ⟨file, hsettled, hmatch, hdata⟩ := readStep_returns h hstep
      exact ⟨file, hsettled, hmatch, by rw [hdata]⟩
    · trivial
  | finished outcome => exact h

/-! ### Traces -/

omit [DecidableEq U] in
/-- A process moves on, in a directory that it has changed within its rights. -/
theorem Inv.update (h : Inv env w) {i : I} {p : Proc U I} {stopped : I → Bool} {late : Bool}
    (hf : Frame i late w.disk d') (hlate : (w.procs i).late = true → late = true)
    (hnames : (d'.entries.map Prod.fst).Nodup) (hown : ∀ j f, (.pending j, f) ∈ d'.entries → f = j)
    (hput : ∀ key, (.final key, i) ∈ d'.entries →
      ∃ args phase, p = .put args phase ∧ phase.late = true ∧ args.key env = key)
    (hp : ProcOk env d' i p) : Inv env ⟨d', Function.update w.procs i p, stopped⟩ := by
  refine ⟨hnames, hown, fun key f hmem => ?_, fun j => ?_⟩
  · by_cases hfi : f = i
    · obtain rfl := hfi
      show ∃ args phase, Function.update w.procs f p f = _ ∧ _
      rw [Function.update_self]
      exact hput key hmem
    · show ∃ args phase, Function.update w.procs i p f = _ ∧ _
      rw [Function.update_of_ne hfi]
      exact h.linked key f (hf.linked key f hfi hmem)
  · by_cases hji : j = i
    · obtain rfl := hji
      show ProcOk env d' j (Function.update w.procs j p j)
      rw [Function.update_self]
      exact hp
    · show ProcOk env d' j (Function.update w.procs i p j)
      rw [Function.update_of_ne hji]
      refine (h.procs j).frame hf (fun key hmem => hlate ?_) hji
      obtain ⟨args, phase, hproc, hphase, -⟩ := h.linked key i hmem
      rw [hproc]
      exact hphase

/-- The process an event is about. -/
def Event.actor : Event U I → I
  | .start i _ | .step i _ _ | .crash i => i

/-- What an event can do. -/
inductive Moves (env : StoreEnv U) (w : World U I) : Event U I → World U I → Prop where
  | nothing (e : Event U I) : Moves env w e w
  | crashed (i : I) : Moves env w (.crash i) { w with stopped := Function.update w.stopped i true }
  | startsPut (i : I) (args : PutArgs U) (hidle : w.procs i = .idle) :
      Moves env w (.start i (.put args)) (w.setProc i (.put args (putStart args)))
  | startsRead (i : I) (args : ReadArgs U) (hidle : w.procs i = .idle) :
      Moves env w (.start i (.read args)) (w.setProc i (.read args (accessStart env args)))
  | puts (i : I) (fault : Bool) (answer : Answer) (args : PutArgs U) (phase : PutAt U I)
      (hproc : w.procs i = .put args phase) : Moves env w (.step i fault answer)
        ({ w with disk := (putStep env i args fault answer w.disk phase).1 }.setProc i
          (.put args (putStep env i args fault answer w.disk phase).2))
  | reads (i : I) (fault : Bool) (answer : Answer) (args : ReadArgs U) (phase : AccessAt I)
      (hproc : w.procs i = .read args phase) : Moves env w (.step i fault answer)
        (w.setProc i (.read args (accessStep env args fault w.disk phase)))

theorem next_moves (env : StoreEnv U) (w : World U I) (e : Event U I) :
    Moves env w e (w.next env e) := by
  cases e with
  | start i op =>
    simp only [World.next]
    split
    · rename_i args _ hidle
      exact .startsPut i args hidle
    · rename_i args _ hidle
      exact .startsRead i args hidle
    · exact .nothing _
  | step i fault answer =>
    simp only [World.next]
    split
    · rename_i args phase _ hproc
      exact .puts i fault answer args phase hproc
    · rename_i args phase _ hproc
      exact .reads i fault answer args phase hproc
    · exact .nothing _
  | crash i => exact .crashed i

omit [DecidableEq U] in
@[simp] theorem setProc_procs (i : I) (p : Proc U I) (j : I) :
    (w.setProc i p).procs j = if j = i then p else w.procs j := Function.update_apply ..

omit [DecidableEq U] [DecidableEq I] in
/-- A process that moves on from an idle one or from a `read` has linked nothing. -/
theorem Inv.not_linked (h : Inv env w) {i : I} (hproc : (w.procs i).late = false) (key : U) :
    (.final key, i) ∉ w.disk.entries := by
  intro hmem
  obtain ⟨args, phase, hput, hlate, -⟩ := h.linked key i hmem
  rw [hput] at hproc
  exact absurd hlate (Bool.eq_false_iff.mp hproc)

/-- Every event keeps the invariant. -/
theorem inv_next (h : Inv env w) (e : Event U I) : Inv env (w.next env e) := by
  have hm := next_moves env w e
  generalize w.next env e = w' at hm
  cases hm with
  | nothing => exact h
  | crashed i => exact ⟨h.names, h.own, h.linked, h.procs⟩
  | startsPut i args hidle =>
    have hok := h.procs i
    rw [hidle] at hok
    refine h.update (Frame.refl i true _) (fun _ => rfl) h.names h.own (fun key hmem => ?_) ?_
    · exact absurd hmem (h.not_linked (hidle ▸ rfl) key)
    · show PutOk env w.disk i args (putStart args)
      unfold putStart
      split <;> exact hok
  | startsRead i args hidle =>
    have hok := h.procs i
    rw [hidle] at hok
    refine h.update (Frame.refl i true _) (fun _ => rfl) h.names h.own (fun key hmem => ?_) ⟨hok, ?_⟩
    · exact absurd hmem (h.not_linked (hidle ▸ rfl) key)
    · unfold accessStart
      split <;> trivial
  | puts i fault answer args phase hproc =>
    have hok := h.procs i
    rw [hproc] at hok
    have he : Effect i w.disk phase (putStep env i args fault answer w.disk phase).2
        (putStep env i args fault answer w.disk phase).1 :=
      putStep_effect h.own args fault answer phase
    refine h.update he.frame (fun hlate => ?_) (he.names h.names) (he.own h.own) (fun key hmem => ?_)
      (putStep_ok h.own fault answer hok)
    · rw [hproc] at hlate
      exact hlate
    · refine ⟨_, _, rfl, ?_⟩
      rcases he.final hmem with hold | ⟨-, -, ref, hkey, hphase, hnext, -⟩
      · obtain ⟨args', phase', hproc', hlate, hkey⟩ := h.linked key i hold
        rw [hproc] at hproc'
        cases hproc'
        exact ⟨he.late hlate, hkey⟩
      · rw [hphase] at hok
        rw [hnext]
        refine ⟨rfl, ?_⟩
        rw [← hkey, hok.2]
        rfl
  | reads i fault answer args phase hproc =>
    have hok := h.procs i
    rw [hproc] at hok
    refine h.update (Frame.refl i true _) (fun _ => rfl) h.names h.own (fun key hmem => ?_)
      ⟨hok.1, accessStep_ok h.own fault hok.2⟩
    exact absurd hmem (h.not_linked (hproc ▸ rfl) key)

theorem inv_run (env : StoreEnv U) (es : List (Event U I)) : Inv env (World.empty.run env es) :=
  Traces.exec_invariant (P := fun _ _ => True) (Inv env) (fun _ e _ h => inv_next h e)
    (Traces.along_true _ _) Inv.empty

theorem run_append (es es' : List (Event U I)) :
    w.run env (es ++ es') = (w.run env es).run env es' := Traces.exec_append _ _ _ _

/-- Every event leaves alone what is not the business of one process. -/
theorem next_frame (h : Inv env w) (e : Event U I) : ∃ i late,
    Frame i late w.disk (w.next env e).disk ∧ ((w.procs i).late = true → late = true) := by
  have hm := next_moves env w e
  generalize w.next env e = w' at hm
  cases hm with
  | nothing => exact ⟨e.actor, true, Frame.refl _ true _, fun _ => rfl⟩
  | crashed i => exact ⟨i, true, Frame.refl i true _, fun _ => rfl⟩
  | startsPut i args _ => exact ⟨i, true, Frame.refl i true _, fun _ => rfl⟩
  | startsRead i args _ => exact ⟨i, true, Frame.refl i true _, fun _ => rfl⟩
  | puts i fault answer args phase hproc =>
    refine ⟨i, phase.late, (putStep_effect h.own args fault answer phase).frame, fun hlate => ?_⟩
    rw [hproc] at hlate
    exact hlate
  | reads i fault answer args phase _ => exact ⟨i, true, Frame.refl i true _, fun _ => rfl⟩

/-! ### Final names -/

theorem object?_eq_some (hnd : (d.entries.map Prod.fst).Nodup) {data : Bytes} :
    d.object? key = some data ↔ ∃ f, (.final key, f) ∈ d.entries ∧ d.content f = data := by
  unfold Disk.object?
  rw [Option.map_eq_some_iff]
  constructor
  · rintro ⟨f, hf, hdata⟩
    exact ⟨f, Disk.mem_of_find? hf, hdata⟩
  · rintro ⟨f, hf, hdata⟩
    exact ⟨f, Disk.find?_of_mem hnd hf, hdata⟩

/-- A file with a final name keeps its bytes, and the name. -/
theorem final_next (h : Inv env w) (e : Event U I) {f : I} (hf : (.final key, f) ∈ w.disk.entries) :
    (.final key, f) ∈ (w.next env e).disk.entries ∧
      (w.next env e).disk.content f = w.disk.content f := by
  obtain ⟨i, late, hframe, hlate⟩ := next_frame h e
  refine ⟨hframe.final key f hf, ?_⟩
  by_cases hfi : f = i
  · obtain rfl := hfi
    obtain ⟨args, phase, hproc, hphase, -⟩ := h.linked key f hf
    refine (hframe.sealed (hlate ?_)).1
    rw [hproc]
    exact hphase
  · exact hframe.content f hfi

theorem object?_next (h : Inv env w) (e : Event U I) {data : Bytes}
    (hobj : w.disk.object? key = some data) : (w.next env e).disk.object? key = some data := by
  obtain ⟨f, hf, rfl⟩ := (object?_eq_some h.names).mp hobj
  obtain ⟨hf', hcontent⟩ := final_next h e hf
  exact (object?_eq_some (inv_next h e).names).mpr ⟨f, hf', hcontent⟩

theorem final_run (h : Inv env w) (es : List (Event U I)) {f : I}
    (hf : (.final key, f) ∈ w.disk.entries) :
    (.final key, f) ∈ (w.run env es).disk.entries ∧
      (w.run env es).disk.content f = w.disk.content f := by
  refine (Traces.exec_invariant (P := fun _ _ => True) (fun v => Inv env v ∧
    (.final key, f) ∈ v.disk.entries ∧ v.disk.content f = w.disk.content f) ?_
    (Traces.along_true _ _) ⟨h, hf, rfl⟩).2
  rintro v e - ⟨hv, hmem, hcontent⟩
  obtain ⟨hmem', hcontent'⟩ := final_next hv e hmem
  exact ⟨inv_next hv e, hmem', hcontent'.trans hcontent⟩

theorem object?_run (h : Inv env w) (es : List (Event U I)) {data : Bytes}
    (hobj : w.disk.object? key = some data) : (w.run env es).disk.object? key = some data :=
  (Traces.exec_invariant (P := fun _ _ => True)
    (fun w => Inv env w ∧ w.disk.object? key = some data)
    (fun _ e _ h => ⟨inv_next h.1 e, object?_next h.1 e h.2⟩) (Traces.along_true _ _) ⟨h, hobj⟩).2

/-- The event is the link step of the `put` with this name, which creates the final name `key` for the
bytes it has copied. -/
structure Links (env : StoreEnv U) (w : World U I) (e : Event U I) (put : I) (key : U) : Prop where
  step : ∃ fault answer, e = .step put fault answer
  phase : ∃ args ref, w.procs put = .put args (.link ref) ∧ args.key env = key
  absent : w.disk.object? key = none
  file : (.final key, put) ∈ (w.next env e).disk.entries
  linked : (w.next env e).disk.object? key = some (w.disk.content put)

/-- An event leaves a final name as it was, or is the link step that creates it. -/
theorem object?_cases (h : Inv env w) (e : Event U I) (key : U) :
    (w.next env e).disk.object? key = w.disk.object? key ∨ ∃ put, Links env w e put key := by
  cases hobj : w.disk.object? key with
  | some data => exact Or.inl (object?_next h e hobj)
  | none =>
    cases hnew : (w.next env e).disk.object? key with
    | none => exact Or.inl rfl
    | some data =>
      obtain ⟨f, hf, hdata⟩ := (object?_eq_some (inv_next h e).names).mp hnew
      have hold : ∀ g, (.final key, g) ∉ w.disk.entries := by
        intro g hg
        rw [(object?_eq_some h.names).mpr ⟨g, hg, rfl⟩] at hobj
        cases hobj
      have hm := next_moves env w e
      have hgoes : ∀ {w'}, w.next env e = w' → (.final key, f) ∈ w'.disk.entries ∧
          w'.disk.content f = data := by
        rintro w' rfl
        exact ⟨hf, hdata⟩
      generalize hw : w.next env e = w' at hm
      cases hm with
      | nothing => exact absurd (hgoes hw).1 (hold f)
      | crashed i => exact absurd (hgoes hw).1 (hold f)
      | startsPut i args _ => exact absurd (hgoes hw).1 (hold f)
      | startsRead i args _ => exact absurd (hgoes hw).1 (hold f)
      | reads i fault answer args phase _ => exact absurd (hgoes hw).1 (hold f)
      | puts i fault answer args phase hproc =>
        rcases (putStep_effect h.own args fault answer phase).final (hgoes hw).1 with
          hmem | ⟨rfl, -, ref, hkey, rfl, -, hcontent⟩
        · exact absurd hmem (hold f)
        · have hok := h.procs f
          rw [hproc] at hok
          have hargs : args.key env = key := by
            rw [← hkey, hok.2]
            rfl
          refine Or.inr ⟨f, ⟨fault, answer, rfl⟩, ⟨args, ref, hproc, hargs⟩, hobj, hf, ?_⟩
          rw [hnew, ← (hgoes hw).2]
          exact congrArg some (congrFun hcontent f)

/-- A `put` keeps its arguments. -/
theorem args_run (env : StoreEnv U) {i : I} {args : PutArgs U} {phase : PutAt U I}
    (hproc : w.procs i = .put args phase) (es : List (Event U I)) : ∃ phase', (w.run env es).procs i = .put args phase' := by
  refine Traces.exec_invariant (P := fun _ _ => True)
    (fun v : World U I => ∃ phase', v.procs i = .put args phase') ?_ (Traces.along_true _ _)
    ⟨phase, hproc⟩
  rintro v e - ⟨phase', hv⟩
  have hm := next_moves env v e
  generalize v.next env e = v' at hm
  cases hm with
  | nothing => exact ⟨phase', hv⟩
  | crashed j => exact ⟨phase', hv⟩
  | startsPut j args' hidle =>
    have hij : i ≠ j := by
      rintro rfl
      rw [hv] at hidle
      cases hidle
    exact ⟨phase', by rw [setProc_procs, if_neg hij, hv]⟩
  | startsRead j args' hidle =>
    have hij : i ≠ j := by
      rintro rfl
      rw [hv] at hidle
      cases hidle
    exact ⟨phase', by rw [setProc_procs, if_neg hij, hv]⟩
  | puts j fault answer args' phase'' hproc =>
    by_cases hij : i = j
    · obtain rfl := hij
      rw [hv] at hproc
      cases hproc
      exact ⟨_, by rw [setProc_procs, if_pos rfl]⟩
    · exact ⟨phase', by rw [setProc_procs, if_neg hij, hv]⟩
  | reads j fault answer args' phase'' hproc =>
    have hij : i ≠ j := by
      rintro rfl
      rw [hv] at hproc
      cases hproc
    exact ⟨phase', by rw [setProc_procs, if_neg hij, hv]⟩

/-! ### The main result -/

/-- No two files have the same digest for different bytes. -/
def World.CollisionFree (env : StoreEnv U) (w : World U I) : Prop :=
  ∀ i j, env.hexdigest (w.disk.content i) = env.hexdigest (w.disk.content j) →
    w.disk.content i = w.disk.content j

/-- No event of the process changes what is under a final name. -/
def Leaves (env : StoreEnv U) (es : List (Event U I)) (i : I) : Prop :=
  ∀ before e rest, es = before ++ e :: rest → e.actor = i → ∀ key,
    (World.empty.run env (before ++ [e])).disk.object? key
      = (World.empty.run env before).disk.object? key

/-- If an event of a process changes a final name, it is the link step of the process. -/
theorem links_of_changed {before : List (Event U I)} {e : Event U I} {key : U}
    (h : (World.empty.run env (before ++ [e])).disk.object? key
      ≠ (World.empty.run env before).disk.object? key) :
    Links env (World.empty.run env before) e e.actor key := by
  rw [run_append] at h
  rcases object?_cases (inv_run env before) e key with hsame | ⟨put, hlinks⟩
  · exact absurd hsame h
  · obtain ⟨fault, answer, rfl⟩ := hlinks.step
    exact hlinks

/-- What the link step of a `put` has linked stays under the final name, and in its file. -/
theorem Links.run {before : List (Event U I)} {e : Event U I}
    (h : Links env (World.empty.run env before) e put key) (rest : List (Event U I)) :
    (World.empty.run env (before ++ e :: rest)).disk.object? key
        = some ((World.empty.run env before).disk.content put) ∧
      (World.empty.run env (before ++ e :: rest)).disk.content put
        = (World.empty.run env before).disk.content put := by
  have hinv := inv_next (inv_run env before) e
  rw [run_append]
  refine ⟨object?_run hinv rest h.linked, (final_run hinv rest h.file).2.trans ?_⟩
  have hobj := (object?_eq_some hinv.names).mpr ⟨put, h.file, rfl⟩
  exact Option.some.inj (hobj.symm.trans h.linked)

/-- The object store is write-once, in every state of every trace of puts, reads, inspections and
crashes: what is under a final name stays; a `put` for a name that has different bytes (the bytes of a
`put` are those it copied into its file) ends in an error and changes no final name; nor does a `put` that
raises without having come to its link step; the bytes a `read` returns have the length and the digest of
its reference and are those of the `put` whose link step created the name; and a `put` that has ended has
left no temporary. -/
theorem write_once (env : StoreEnv U) (es : List (Event U I)) :
    (∀ later key data, (World.empty.run env es).disk.object? key = some data →
      (World.empty.run env (es ++ later)).disk.object? key = some data) ∧
    (∀ i args outcome data, (World.empty.run env es).procs i = .put args (.finished outcome) →
      (World.empty.run env es).disk.object? (args.key env) = some data →
      data ≠ (World.empty.run env es).disk.content i →
      (World.empty.run env es).CollisionFree env →
      (∃ e, outcome = .error e) ∧ Leaves env es i) ∧
    (∀ i args e, (World.empty.run env es).procs i = .put args (.finished (.error e)) →
      (∀ before rest, es = before ++ rest → ∀ args ref,
        (World.empty.run env before).procs i ≠ .put args (.link ref)) → Leaves env es i) ∧
    (∀ i args data, (World.empty.run env es).procs i = .read args (.finished (.ok data)) →
      args.collect = true → data.length = args.ref.byteSize ∧ env.hexdigest data = args.ref.sha256 ∧
      ∃ before e rest put, es = before ++ e :: rest ∧
        Links env (World.empty.run env before) e put args.ref.key ∧
        (World.empty.run env before).disk.content put = data) ∧
    ∀ i args outcome, (World.empty.run env es).procs i = .put args (.finished outcome) →
      ∀ f, (.pending i, f) ∉ (World.empty.run env es).disk.entries := by
  have hinv : Inv env (World.empty.run env es) := inv_run env es
  refine ⟨fun later key data hobj => ?_, fun i args outcome data hproc hobj hne hfree => ⟨?_, ?_⟩,
    fun i args e hproc hnever => ?_, fun i args data hproc hcollect => ?_,
    fun i args outcome hproc => ?_⟩
  · rw [run_append]
    exact object?_run hinv later hobj
  · have hok := hinv.procs i
    rw [hproc] at hok
    cases outcome with
    | error e => exact ⟨e, rfl⟩
    | ok ref =>
      -- it would have found the bytes it has itself
      obtain ⟨-, href, file, hsettled, -, hdigest⟩ := hok
      rw [href] at hsettled hdigest
      have hfile := (object?_eq_some hinv.names).mpr ⟨file, hsettled.linked, rfl⟩
      refine absurd ?_ hne
      rw [Option.some.inj (hobj.symm.trans hfile)]
      exact hfree file i hdigest
  · intro before e rest hes hactor key
    by_contra hchanged
    have hlinks := links_of_changed hchanged
    rw [hactor] at hlinks
    obtain ⟨args', ref, hlink, hkey⟩ := hlinks.phase
    obtain ⟨hend, hcontent⟩ := hlinks.run rest
    obtain ⟨phase', hargs⟩ := args_run env hlink (e :: rest)
    rw [← run_append, ← hes, hproc] at hargs
    cases hargs
    rw [← hes] at hend hcontent
    rw [hkey, hend] at hobj
    exact hne ((Option.some.inj hobj).symm.trans hcontent.symm)
  · intro before e' rest hes hactor key
    by_contra hchanged
    have hlinks := links_of_changed hchanged
    rw [hactor] at hlinks
    obtain ⟨args', ref, hlink, -⟩ := hlinks.phase
    exact hnever before (e' :: rest) hes args' ref hlink
  · have hok := hinv.procs i
    rw [hproc] at hok
    obtain ⟨-, file, hsettled, hmatch, hdata⟩ := hok
    rw [hcollect, if_pos rfl] at hdata
    rw [← hdata] at hmatch
    refine ⟨hmatch.1, hmatch.2, ?_⟩
    have hobj : (World.empty.run env es).disk.object? args.ref.key = some data :=
      (object?_eq_some hinv.names).mpr ⟨file, hsettled.linked, hdata.symm⟩
    obtain ⟨before, e, rest, hes, hnot, hyes⟩ := Traces.exists_step
      (fun w : World U I => w.disk.object? args.ref.key = some data)
      (by simp [World.empty, Disk.object?, Disk.find?]) hobj
    rcases object?_cases (inv_run env before) e args.ref.key with hsame | ⟨put, hlinks⟩
    · exact absurd (hsame.symm.trans hyes) hnot
    · exact ⟨before, e, rest, put, hes, hlinks, Option.some.inj (hlinks.linked.symm.trans hyes)⟩
  · have hok := hinv.procs i
    rw [hproc] at hok
    cases outcome with
    | error e => exact hok
    | ok ref => exact hok.1

end Polymind.Storage
