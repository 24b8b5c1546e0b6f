import Polymind.Documents.Equiv.WriteOnce

/-!
# Equal puts

The traces in which every `put` for one key brings the same object and no filesystem call fails.

* `put_idempotent`: such a `put` returns the one reference of the object, unless it meets its final name
  while the temporary of the `put` that linked it is still there; and once one of them has returned,
  every `read` of the reference returns the bytes;
* `equal_put_refused`: a `put` that was stopped between its link step and its unlink step makes another
  `put` of the same bytes fail.
-/

namespace Polymind.Storage

open Traces

variable {U I : Type} [DecidableEq U] [DecidableEq I] {env : StoreEnv U} {d d' : Disk U I}
  {w : World U I}

/-! ### Equal puts -/

/-- An object, and the bytes a `put` of it brings. -/
structure Object (U : Type) where
  scope : Scope U
  kind : ObjectKind
  objectId : U
  data : Bytes

def Object.key (env : StoreEnv U) (o : Object U) : U :=
  env.stableId [o.scope.identity env.toIds, o.kind.text, env.uuidStr o.objectId]

/-- The reference of the object. -/
def Object.ref (env : StoreEnv U) (o : Object U) : ObjectRef U :=
  ⟨o.scope, o.kind, o.objectId, o.key env, env.hexdigest o.data, o.data.length⟩

/-- The arguments of a `put` of the object, with a limit and an expected digest that admit it. -/
structure Puts (env : StoreEnv U) (o : Object U) (args : PutArgs U) : Prop where
  scope : args.scope = o.scope
  kind : args.kind = o.kind
  objectId : args.objectId = o.objectId
  limit : 1 ≤ args.maxBytes ∧ o.data.length ≤ args.maxBytes
  expected : ∀ digest, args.expectedSha256 = some digest → digest = env.hexdigest o.data

/-- The arguments of a `read` of the object, with a limit that admits it. -/
structure Reads (env : StoreEnv U) (o : Object U) (args : ReadArgs U) : Prop where
  ref : args.ref = o.ref env
  scope : args.scope = o.scope
  limit : 1 ≤ args.maxBytes ∧ o.data.length ≤ args.maxBytes

/-- The stream of a `put` that has copied `got` answers with more of the bytes, and with none only at their
end. -/
def Delivers (o : Object U) (got : Bytes) (answer : Answer) : Prop :=
  ∃ chunk, answer = .chunk chunk ∧ got ++ chunk <+: o.data ∧ (chunk = [] → got = o.data)

/-- The event does not fail, and if it is about a `put` for the key of the object, it is about a `put` of
the object. -/
def Calm (env : StoreEnv U) (o : Object U) (w : World U I) : Event U I → Prop
  | .start _ (.put args) => args.key env = o.key env → Puts env o args
  | .start _ (.read _) => True
  | .step i fault answer => fault = false ∧ ∀ args got, w.procs i = .put args (.copy got) →
      args.key env = o.key env → Delivers o got answer
  | .crash _ => True

/-- The final name of the object and the temporary of the `put` that linked it are both there: that `put`
stands between its link step and its unlink step, or was stopped there. -/
def TwiceLinked (env : StoreEnv U) (o : Object U) (w : World U I) : Prop :=
  ∃ put args ref, w.procs put = .put args (.unlink ref) ∧
    (.final (o.key env), put) ∈ w.disk.entries ∧ (.pending put, put) ∈ w.disk.entries

/-- The `put` looks at the final name of the object, which is linked twice. -/
def MeetsTwice (env : StoreEnv U) (o : Object U) (w : World U I) (put : I) : Prop :=
  TwiceLinked env o w ∧ ∃ args ref file, w.procs put = .put args (.verify ref (.stating file))

omit [DecidableEq U] in
theorem Puts.ref_eq {o : Object U} {args : PutArgs U} (h : Puts env o args) :
    args.ref env o.data = o.ref env := by
  unfold PutArgs.ref Object.ref PutArgs.key Object.key
  rw [h.scope, h.kind, h.objectId]

/-! ### Reading the object -/

/-- Where a `_read` of the object stands that will not fail for what it has found so far. -/
def ReadGood (d : Disk U I) (o : Object U) (key : U) : ReadAt I → Prop
  | .opening => ∃ file, (.final key, file) ∈ d.entries
  | .stating file => (.final key, file) ∈ d.entries
  | .fetching file got => (.final key, file) ∈ d.entries ∧ got <+: o.data

section

variable {o : Object U} {ref : ObjectRef U} {maxBytes : Nat} {reading : ReadAt I}

/-- A `_read` of the object goes on, returns the bytes, or finds more than one link. -/
theorem readStep_good (hnd : (d.entries.map Prod.fst).Nodup)
    (hobj : ∀ f, (.final ref.key, f) ∈ d.entries → d.content f = o.data)
    (hmatch : Matches env ref o.data) (hmax : o.data.length ≤ maxBytes)
    (h : ReadGood d o ref.key reading) :
    (∃ reading', readStep env d ref maxBytes false reading = .inl reading' ∧
      ReadGood d o ref.key reading') ∨
    readStep env d ref maxBytes false reading = .inr (.ok o.data) ∨
    ((∃ file, reading = .stating file ∧ (.final ref.key, file) ∈ d.entries ∧ d.nlink file ≠ 1) ∧
      readStep env d ref maxBytes false reading
        = .inr (.error (.documentError .storageError))) := by
  cases reading with
  | opening =>
    obtain ⟨file, hfile⟩ := h
    refine Or.inl ⟨.stating file, ?_, hfile⟩
    simp [readStep, Disk.find?_of_mem hnd hfile]
  | stating file =>
    by_cases hlink : d.nlink file = 1
    · refine Or.inl ⟨.fetching file [], ?_, h, List.nil_prefix⟩
      simp [readStep, hlink, hobj file h, Nat.not_lt.mpr hmax]
    · exact Or.inr (Or.inr ⟨⟨file, rfl, h, hlink⟩, by simp [readStep, hlink]⟩)
  | fetching file got =>
    obtain ⟨hfile, rest, hrest⟩ := h
    have hdrop : (d.content file).drop got.length = rest := by
      rw [hobj file hfile, ← hrest, List.drop_left]
    cases hr : rest with
    | nil =>
      rw [hr, List.append_nil] at hrest
      refine Or.inr (Or.inl ?_)
      simp only [readStep, hdrop, hr, List.take_nil]
      simp [hrest, hmatch.1, hmatch.2]
    | cons byte rest' =>
      -- the chunk is not empty, and within the limit
      set chunk := rest.take (min 65536 (maxBytes - got.length + 1)) with hchunk
      have hne : chunk ≠ [] := by
        rw [hchunk, hr]
        intro hnil
        rcases List.take_eq_nil_iff.mp hnil with h0 | h0
        · omega
        · cases h0
      have hpre : got ++ chunk <+: o.data := by
        rw [← hrest, List.prefix_append_right_inj]
        exact List.take_prefix _ _
      have hlen : got.length + chunk.length ≤ maxBytes := by
        rw [← List.length_append]
        exact hpre.length_le.trans hmax
      refine Or.inl ⟨.fetching file (got ++ chunk), ?_, hfile, hpre⟩
      simp only [readStep, hdrop, ← hchunk, hne, Nat.not_lt.mpr hlen, if_false, Bool.false_eq_true]

end

/-! ### Putting the object -/

/-- Where a `put` of the object stands; only those that `met` something have failed. -/
def PutGood (d : Disk U I) (o : Object U) (met : I → Prop) (put : I) : PutAt U I → Prop
  | .directory | .create => True
  | .copy got => got <+: o.data
  | .sync got => got = o.data
  | .link _ | .unlink _ | .syncDirectory _ | .cleanup (.ok _) | .finished (.ok _) =>
    d.content put = o.data
  | .verify ref reading => d.content put = o.data ∧ ReadGood d o ref.key reading
  | .cleanup (.error e) | .finished (.error e) =>
    e = .documentError .storageError ∧ met put ∧ ∀ key, (.final key, put) ∉ d.entries

/-- Every `put` for the key of the object is one of the object and has come that far. -/
def PutsGood (env : StoreEnv U) (o : Object U) (met : I → Prop) (w : World U I) : Prop :=
  ∀ put args phase, w.procs put = .put args phase → args.key env = o.key env →
    Puts env o args ∧ PutGood w.disk o met put phase

section

variable {o : Object U} {met : I → Prop}

omit [DecidableEq U] [DecidableEq I] in
/-- The final name of the object, if it is there, has its bytes. -/
theorem PutsGood.content (h : Inv env w) (hg : PutsGood env o met w) {f : I}
    (hf : (.final (o.key env), f) ∈ w.disk.entries) : w.disk.content f = o.data := by
  obtain ⟨args, phase, hproc, hlate, hkey⟩ := h.linked _ f hf
  have hgood := (hg f args phase hproc hkey).2
  cases phase with
  | unlink ref => exact hgood
  | syncDirectory ref => exact hgood
  | cleanup outcome =>
    cases outcome with
    | error e => exact absurd hf (hgood.2.2 _)
    | ok ref => exact hgood
  | finished outcome =>
    cases outcome with
    | error e => exact absurd hf (hgood.2.2 _)
    | ok ref => exact hgood
  | _ => cases hlate

/-- A file whose final name is settled has no other name. -/
theorem nlink_of_settled (h : Inv env w) {key : U} {f : I} (hs : Settled w.disk key f) :
    w.disk.nlink f = 1 := by
  have honly : ∀ entry ∈ w.disk.entries, entry.2 = f ↔ entry = (.final key, f) := by
    rintro ⟨name, g⟩ hmem
    constructor
    · rintro rfl
      cases name with
      | pending i =>
        obtain rfl := h.own i g hmem
        exact absurd hmem (hs.alone g)
      | final key' =>
        obtain ⟨args, phase, hproc, -, hkey⟩ := h.linked _ g hmem
        obtain ⟨args', phase', hproc', -, hkey'⟩ := h.linked _ g hs.linked
        rw [hproc] at hproc'
        cases hproc'
        rw [← hkey, hkey']
    · intro heq
      rw [heq]
  have hcount : w.disk.nlink f = w.disk.entries.count (.final key, f) := by
    unfold Disk.nlink
    rw [List.count]
    refine List.countP_congr fun entry hmem => ?_
    simp only [decide_eq_true_eq, beq_iff_eq]
    exact honly entry hmem
  rw [hcount]
  exact List.count_eq_one_of_mem h.names.of_map hs.linked

/-- A second link of the object is the temporary of a `put` between its link and its unlink step. -/
theorem twiceLinked_of_nlink (h : Inv env w) (hg : PutsGood env o met w) {f : I}
    (hf : (.final (o.key env), f) ∈ w.disk.entries) (hlink : w.disk.nlink f ≠ 1) :
    TwiceLinked env o w := by
  have hpending : (.pending f, f) ∈ w.disk.entries := by
    by_contra hnone
    refine hlink (nlink_of_settled h ⟨hf, fun g hmem => hnone ?_⟩)
    obtain rfl := h.own f g hmem
    exact hmem
  obtain ⟨args, phase, hproc, hlate, hkey⟩ := h.linked _ f hf
  have hok := h.procs f
  have hgood := (hg f args phase hproc hkey).2
  rw [hproc] at hok
  cases phase with
  | unlink ref => exact ⟨f, args, ref, hproc, hf, hpending⟩
  | syncDirectory ref => exact absurd hpending (hok.1 f)
  | cleanup outcome =>
    cases outcome with
    | error e => exact absurd hf (hgood.2.2 _)
    | ok ref => exact absurd hpending (hok.1 f)
  | finished outcome =>
    cases outcome with
    | error e => exact absurd hpending (hok f)
    | ok ref => exact absurd hpending (hok.1 f)
  | _ => cases hlate

omit [DecidableEq U] [DecidableEq I] in
theorem ReadGood.mono (hmono : ∀ key f, (.final key, f) ∈ d.entries → (.final key, f) ∈ d'.entries)
    {key : U} {reading : ReadAt I} (h : ReadGood d o key reading) : ReadGood d' o key reading := by
  cases reading with
  | opening => exact h.imp fun f hf => hmono key f hf
  | stating file => exact hmono key file h
  | fetching file got => exact ⟨hmono key file h.1, h.2⟩

omit [DecidableEq U] [DecidableEq I] in
/-- The step of a `put` leaves the others as far as they have come. -/
theorem PutGood.frame {put j : I} {late : Bool} (hf : Frame put late d d') (hj : j ≠ put)
    {phase : PutAt U I} (h : PutGood d o met j phase) : PutGood d' o met j phase := by
  have hcontent := hf.content j hj
  have hfailed : ∀ {e : Raised}, e = .documentError .storageError ∧ met j ∧
      (∀ key, (.final key, j) ∉ d.entries) → e = .documentError .storageError ∧ met j ∧
      ∀ key, (.final key, j) ∉ d'.entries :=
    fun h => ⟨h.1, h.2.1, fun key hmem => h.2.2 key (hf.linked key j hj hmem)⟩
  cases phase with
  | directory => trivial
  | create => trivial
  | copy got => exact h
  | sync got => exact h
  | link ref => exact hcontent.trans h
  | verify ref reading => exact ⟨hcontent.trans h.1, h.2.mono hf.final⟩
  | unlink ref => exact hcontent.trans h
  | syncDirectory ref => exact hcontent.trans h
  | cleanup outcome =>
    cases outcome with
    | error e => exact hfailed h
    | ok ref => exact hcontent.trans h
  | finished outcome =>
    cases outcome with
    | error e => exact hfailed h
    | ok ref => exact hcontent.trans h

/-- A `put` of the object comes further with every step, or finds the object linked twice. -/
theorem putStep_good (hdigest : isDigest (env.hexdigest o.data) = true) (h : Inv env w)
    (hg : PutsGood env o met w) (hmet : ∀ put, MeetsTwice env o w put → met put) {put : I} {args : PutArgs U}
    {phase : PutAt U I} (hproc : w.procs put = .put args phase) (hkey : args.key env = o.key env)
    {answer : Answer} (hanswer : ∀ got, phase = .copy got → Delivers o got answer) :
    PutGood (putStep env put args false answer w.disk phase).1 o met put
      (putStep env put args false answer w.disk phase).2 := by
  obtain ⟨hputs, hgood⟩ := hg put args phase hproc hkey
  have hok := h.procs put
  rw [hproc] at hok
  have hhere : (.pending put, put) ∈ w.disk.entries → w.disk.find? (.pending put) = some put :=
    Disk.find?_of_mem h.names
  cases phase with
  | directory => trivial
  | create =>
    have hnew : w.disk.find? (.pending put) = none := Disk.find?_eq_none.mpr hok
    simp only [putStep, hnew]
    exact List.nil_prefix
  | copy got =>
    obtain ⟨chunk, rfl, hpre, hend⟩ := hanswer got rfl
    have hlen : got.length + chunk.length ≤ args.maxBytes := by
      rw [← List.length_append]
      exact hpre.length_le.trans hputs.limit.2
    simp only [putStep]
    split
    · rename_i hnil
      exact hend hnil
    · rw [if_neg (Nat.not_lt.mpr hlen)]
      exact hpre
  | sync got =>
    obtain rfl : got = o.data := hgood
    have hexpected : (args.expectedSha256.any fun expected => env.hexdigest o.data ≠ expected)
        = false := by
      cases hex : args.expectedSha256 with
      | none => rfl
      | some digest => simp [hputs.expected digest hex]
    have hvalid : (args.ref env o.data).valid env.toIds = true := by
      unfold ObjectRef.valid
      rw [Bool.and_eq_true]
      exact ⟨hdigest, beq_self_eq_true _⟩
    simp only [putStep, hexpected, hvalid]
    exact hok.2
  | link ref =>
    simp only [putStep, hhere hok.1]
    split
    · rename_i hsome
      obtain ⟨file, hfile⟩ := Option.isSome_iff_exists.mp hsome
      exact ⟨hgood, file, Disk.mem_of_find? hfile⟩
    · exact hgood
  | verify ref reading =>
    obtain ⟨hdata, hread⟩ := hgood
    have href : ref = args.ref env o.data := hdata ▸ hok.2.1
    have hrefkey : ref.key = o.key env := by
      rw [href, ← hkey]
      rfl
    have hobj : ∀ f, (.final ref.key, f) ∈ w.disk.entries → w.disk.content f = o.data :=
      fun f hf => hg.content h (hrefkey ▸ hf)
    have hmatch : Matches env ref o.data := href ▸ matches_ref args o.data
    rcases readStep_good h.names hobj hmatch hputs.limit.2 hread with
      ⟨reading', hstep, hread'⟩ | hstep | ⟨⟨file, rfl, hfile, hlink⟩, hstep⟩
    · simp only [putStep, hstep]
      exact ⟨hdata, hread'⟩
    · simp only [putStep, hstep]
      exact hdata
    · simp only [putStep, hstep]
      refine ⟨rfl, hmet put ⟨twiceLinked_of_nlink h hg (hrefkey ▸ hfile) hlink, args, ref, file, hproc⟩,
        fun key hmem => ?_⟩
      -- a `put` that verifies has linked nothing
      obtain ⟨args', phase', hproc', hlate, -⟩ := h.linked key put hmem
      rw [hproc] at hproc'
      cases hproc'
      cases hlate
  | unlink ref =>
    simp only [putStep, hhere hok.1]
    exact hgood
  | syncDirectory ref => exact hgood
  | cleanup outcome =>
    cases outcome with
    | error e =>
      exact ⟨hgood.1, hgood.2.1, fun key hmem => hgood.2.2 key (Disk.mem_unlink.mp hmem).1⟩
    | ok ref => exact hgood
  | finished outcome => exact hgood

/-- Every event of a calm trace keeps the puts of the object going. -/
theorem putsGood_next (hdigest : isDigest (env.hexdigest o.data) = true) (h : Inv env w)
    (hg : PutsGood env o met w) {e : Event U I} (hcalm : Calm env o w e)
    (hmet : ∀ put, MeetsTwice env o w put → met put) : PutsGood env o met (w.next env e) := by
  intro put args phase hproc hkey
  have hm := next_moves env w e
  generalize w.next env e = w' at hm hproc
  cases hm with
  | nothing => exact hg put args phase hproc hkey
  | crashed i => exact hg put args phase hproc hkey
  | startsPut i args' hidle =>
    by_cases hi : put = i
    · rw [setProc_procs, if_pos hi] at hproc
      cases hproc
      have hputs : Puts env o args := hcalm hkey
      refine ⟨hputs, ?_⟩
      rw [putStart, if_neg (Nat.not_lt.mpr hputs.limit.1)]
      trivial
    · rw [setProc_procs, if_neg hi] at hproc
      exact hg put args phase hproc hkey
  | startsRead i args' hidle =>
    by_cases hi : put = i
    · rw [setProc_procs, if_pos hi] at hproc
      cases hproc
    · rw [setProc_procs, if_neg hi] at hproc
      exact hg put args phase hproc hkey
  | puts i fault answer args' phase' hproc' =>
    obtain ⟨rfl, hdelivers⟩ := hcalm
    by_cases hi : put = i
    · rw [setProc_procs, if_pos hi] at hproc
      cases hproc
      obtain rfl := hi
      refine ⟨(hg put args phase' hproc' hkey).1, ?_⟩
      exact putStep_good hdigest h hg hmet hproc' hkey fun got hgot =>
        hdelivers args got (hgot ▸ hproc') hkey
    · rw [setProc_procs, if_neg hi] at hproc
      obtain ⟨hputs, hgood⟩ := hg put args phase hproc hkey
      have he : Effect i w.disk phase' (putStep env i args' false answer w.disk phase').2
          (putStep env i args' false answer w.disk phase').1 :=
        putStep_effect h.own args' false answer phase'
      exact ⟨hputs, hgood.frame he.frame hi⟩
  | reads i fault answer args' phase' hproc' =>
    by_cases hi : put = i
    · rw [setProc_procs, if_pos hi] at hproc
      cases hproc
    · rw [setProc_procs, if_neg hi] at hproc
      exact hg put args phase hproc hkey

end

/-! ### Reads of the object -/

/-- Where a `read` of the object stands that will not fail. -/
def AccessGood (env : StoreEnv U) (d : Disk U I) (o : Object U) (args : ReadArgs U) :
    AccessAt I → Prop
  | .directory => True
  | .reading reading => ReadGood d o (o.key env) reading
  | .finished outcome => outcome = .ok (if args.collect then o.data else [])

/-- A `read` of the object comes further with every step, once the object is settled. -/
theorem accessStep_good {o : Object U} {met : I → Prop} (h : Inv env w)
    (hg : PutsGood env o met w) {f : I} (hs : Settled w.disk (o.key env) f) {args : ReadArgs U}
    (hreads : Reads env o args) {phase : AccessAt I} (hgood : AccessGood env w.disk o args phase) :
    AccessGood env w.disk o args (accessStep env args false w.disk phase) := by
  cases phase with
  | directory => exact ⟨f, hs.linked⟩
  | reading reading =>
    have hkey : args.ref.key = o.key env := congrArg ObjectRef.key hreads.ref
    have hobj : ∀ g, (.final args.ref.key, g) ∈ w.disk.entries → w.disk.content g = o.data :=
      fun g hg' => hg.content h (hkey ▸ hg')
    have hmatch : Matches env args.ref o.data := by
      rw [hreads.ref]
      exact ⟨rfl, rfl⟩
    have hread : ReadGood w.disk o args.ref.key reading := hkey ▸ hgood
    rcases readStep_good h.names hobj hmatch hreads.limit.2 hread with
      ⟨reading', hstep, hread'⟩ | hstep | ⟨⟨file, -, hfile, hlink⟩, -⟩
    · simp only [accessStep, hstep]
      show ReadGood w.disk o (o.key env) reading'
      exact hkey ▸ hread'
    · simp only [accessStep, hstep]
      rfl
    · -- the name is linked once
      rw [hkey] at hfile
      have heq : file = f :=
        congrArg Prod.snd (List.inj_on_of_nodup_map h.names hfile hs.linked rfl)
      exact absurd (nlink_of_settled h hs) (heq ▸ hlink)
  | finished outcome => exact hgood

theorem settled_next (h : Inv env w) (e : Event U I) {key : U} {f : I} (hs : Settled w.disk key f) :
    Settled (w.next env e).disk key f := by
  obtain ⟨i, late, hframe, hlate⟩ := next_frame h e
  refine (hs.frame hframe fun key' hmem => hlate ?_).1
  obtain ⟨args, phase, hproc, hphase, -⟩ := h.linked key' i hmem
  rw [hproc]
  exact hphase

omit [DecidableEq I] in
theorem accessStart_good {o : Object U} {args : ReadArgs U} (hreads : Reads env o args) :
    AccessGood env d o args (accessStart env args) := by
  have hcheck : check env args = .ok () := by
    have hscope : args.scope = args.ref.scope := by
      rw [hreads.ref, hreads.scope]
      rfl
    have hlimit : ¬(args.maxBytes < 1 ∨ args.maxBytes < args.ref.byteSize) := by
      rw [hreads.ref, not_or, not_lt, not_lt]
      exact hreads.limit
    have hkey : args.ref.key = env.stableId [args.scope.identity env.toIds, args.ref.kind.text,
        env.uuidStr args.ref.objectId] := by
      rw [hreads.ref, hreads.scope]
      rfl
    unfold check
    rw [if_neg (not_not.mpr hscope), if_neg hlimit, if_neg (not_not.mpr hkey)]
  unfold accessStart
  rw [hcheck]
  trivial

/-- Every event of a calm trace keeps a `read` of the settled object going. -/
theorem accessGood_next {o : Object U} {met : I → Prop} (h : Inv env w) (hg : PutsGood env o met w)
    {f : I} (hs : Settled w.disk (o.key env) f) {i : I} (hgood : ∀ args phase,
      w.procs i = .read args phase → Reads env o args → AccessGood env w.disk o args phase)
    {e : Event U I} (hcalm : Calm env o w e) : ∀ args phase,
      (w.next env e).procs i = .read args phase → Reads env o args →
        AccessGood env (w.next env e).disk o args phase := by
  intro args phase hproc hreads
  obtain ⟨j, late, hframe, -⟩ := next_frame h e
  have hm := next_moves env w e
  generalize w.next env e = w' at hm hproc hframe
  have hkeep : AccessGood env w.disk o args phase → AccessGood env w'.disk o args phase := by
    intro hold
    cases phase with
    | directory => trivial
    | reading reading => exact ReadGood.mono hframe.final hold
    | finished outcome => exact hold
  refine hkeep ?_
  cases hm with
  | nothing => exact hgood args phase hproc hreads
  | crashed k => exact hgood args phase hproc hreads
  | startsPut k args' hidle =>
    by_cases hk : i = k
    · rw [setProc_procs, if_pos hk] at hproc
      cases hproc
    · rw [setProc_procs, if_neg hk] at hproc
      exact hgood args phase hproc hreads
  | startsRead k args' hidle =>
    by_cases hk : i = k
    · rw [setProc_procs, if_pos hk] at hproc
      cases hproc
      exact accessStart_good hreads
    · rw [setProc_procs, if_neg hk] at hproc
      exact hgood args phase hproc hreads
  | puts k fault answer args' phase' hproc' =>
    by_cases hk : i = k
    · rw [setProc_procs, if_pos hk] at hproc
      cases hproc
    · rw [setProc_procs, if_neg hk] at hproc
      exact hgood args phase hproc hreads
  | reads k fault answer args' phase' hproc' =>
    obtain ⟨rfl, -⟩ := hcalm
    by_cases hk : i = k
    · rw [setProc_procs, if_pos hk] at hproc
      cases hproc
      exact accessStep_good h hg hs hreads (hgood args phase' (hk ▸ hproc') hreads)
    · rw [setProc_procs, if_neg hk] at hproc
      exact hgood args phase hproc hreads

/-! ### The main result -/

/-- What a `put` of the object meets at some time of the trace. -/
def Met (env : StoreEnv U) (o : Object U) (es : List (Event U I)) (put : I) : Prop :=
  ∃ before rest, es = before ++ rest ∧ MeetsTwice env o (World.empty.run env before) put

/-- The state after every prefix of a calm trace. -/
theorem putsGood_run {o : Object U} (hdigest : isDigest (env.hexdigest o.data) = true)
    {es : List (Event U I)} (hcalm : Along (World.next env) (Calm env o) World.empty es) :
    PutsGood env o (Met env o es) (World.empty.run env es) := by
  have hmet : Along (World.next env)
      (fun w _ => ∀ put, MeetsTwice env o w put → Met env o es put) World.empty es :=
    along_of_prefix fun before e rest hes put hmeets => ⟨before, e :: rest, hes, hmeets⟩
  refine (exec_invariant (fun w => Inv env w ∧ PutsGood env o (Met env o es) w) ?_
    (along_and hcalm hmet) ⟨Inv.empty, fun put args phase hproc => nomatch hproc⟩).2
  exact fun w e hstep hw => ⟨inv_next hw.1 e, putsGood_next hdigest hw.1 hw.2 hstep.1 hstep.2⟩

/-- Equal puts, in every trace in which each `put` for the key of the object brings the object and no
filesystem call fails, with any number of crashes: such a `put` that runs to completion returns the
reference of the object, unless it has looked at the final name while it was linked twice and raises
`storage_error`; and a `read` of the reference that starts after one of them has returned succeeds with
the bytes. -/
theorem put_idempotent (env : StoreEnv U) (o : Object U) (es : List (Event U I))
    (hdigest : isDigest (env.hexdigest o.data) = true)
    (hcalm : Along (World.next env) (Calm env o) World.empty es) :
    (∀ put args outcome, (World.empty.run env es).procs put = .put args (.finished outcome) →
      args.key env = o.key env → outcome = .ok (o.ref env) ∨
        (outcome = .error (.documentError .storageError) ∧ Met env o es put)) ∧
    ∀ before rest put args ref i rargs outcome, es = before ++ rest →
      (World.empty.run env before).procs put = .put args (.finished (.ok ref)) →
      args.key env = o.key env → (World.empty.run env before).procs i = .idle →
      (World.empty.run env es).procs i = .read rargs (.finished outcome) → Reads env o rargs →
      outcome = .ok (if rargs.collect then o.data else []) := by
  refine ⟨fun put args outcome hproc hkey => ?_,
    fun before rest put args ref i rargs outcome hes hput hkey hidle hread hreads => ?_⟩
  · obtain ⟨hputs, hgood⟩ := putsGood_run hdigest hcalm put args _ hproc hkey
    have hok := (inv_run env es).procs put
    rw [hproc] at hok
    cases outcome with
    | error e => exact Or.inr ⟨congrArg Except.error hgood.1, hgood.2.1⟩
    | ok ref =>
      have hdata : (World.empty.run env es).disk.content put = o.data := hgood
      rw [hok.2.1, hdata, hputs.ref_eq]
      exact Or.inl rfl
  · subst hes
    obtain ⟨hbefore, hrest⟩ := along_append.mp hcalm
    have hinv : Inv env (World.empty.run env before) := inv_run env before
    have hg := putsGood_run hdigest hbefore
    -- the object is settled from now on
    have hok := hinv.procs put
    rw [hput] at hok
    obtain ⟨-, href, f, hs, -⟩ := hok
    have hrefkey : ref.key = o.key env := by
      rw [href, ← hkey]
      rfl
    rw [hrefkey] at hs
    rw [run_append] at hread
    have hgood : PutsGood env o (fun _ => True) (World.empty.run env before) := by
      intro put' args' phase' hproc' hkey'
      obtain ⟨hputs', hgood'⟩ := hg put' args' phase' hproc' hkey'
      refine ⟨hputs', ?_⟩
      cases phase' with
      | cleanup outcome' => cases outcome' with
        | error e => exact ⟨hgood'.1, trivial, hgood'.2.2⟩
        | ok ref' => exact hgood'
      | finished outcome' => cases outcome' with
        | error e => exact ⟨hgood'.1, trivial, hgood'.2.2⟩
        | ok ref' => exact hgood'
      | _ => exact hgood'
    have hend := exec_invariant (fun w : World U I => Inv env w ∧ PutsGood env o (fun _ => True) w ∧
      Settled w.disk (o.key env) f ∧ ∀ args phase, w.procs i = .read args phase →
        Reads env o args → AccessGood env w.disk o args phase) ?_ hrest
      ⟨hinv, hgood, hs, fun args phase hproc => by
        have hproc' : (World.empty.run env before).procs i = .read args phase := hproc
        rw [hidle] at hproc'
        cases hproc'⟩
    · exact hend.2.2.2 rargs _ hread hreads
    · intro w e hcalm' hw
      obtain ⟨hi, hp, hsettled, haccess⟩ := hw
      exact ⟨inv_next hi e, putsGood_next hdigest hi hp hcalm' (fun _ _ => trivial),
        settled_next hi e hsettled, accessGood_next hi hp hsettled haccess hcalm'⟩

/-! ### A put that is stopped, and one that returns -/

/-- A store with one key. -/
def sampleStore : StoreEnv Nat where
  uuid5 _ := 0
  uuidStr _ := []
  sha256 _ := []
  floatRepr _ := []
  divide _ _ := 0
  isPrintable _ := true
  hexdigest _ := List.replicate 64 '0'

def sampleObject : Object Nat := ⟨⟨0, 0⟩, .source, 0, [7]⟩

def samplePut : PutArgs Nat := ⟨⟨0, 0⟩, .source, 0, 8, none⟩

def sampleRead : ReadArgs Nat := ⟨⟨0, 0⟩, sampleObject.ref sampleStore, 8, true⟩

/-- A step that asks no stream. -/
def quiet (i : Nat) : Event Nat Nat := .step i false .notBytes

/-- A `put` of the sample object up to its link step. -/
def sampleLink (put : Nat) : List (Event Nat Nat) :=
  [.start put (.put samplePut), quiet put, quiet put, .step put false (.chunk [7]),
    .step put false (.chunk []), quiet put, quiet put]

/-- One `put` is stopped after its link step, another runs to completion. -/
def sampleCrash : List (Event Nat Nat) :=
  sampleLink 0 ++ .crash 0 :: sampleLink 1 ++ [quiet 1, quiet 1, quiet 1]

/-- A `put` runs to completion. -/
def sampleReturn : List (Event Nat Nat) := sampleLink 0 ++ [quiet 0, quiet 0, quiet 0]

def sampleReading : List (Event Nat Nat) :=
  .start 1 (.read sampleRead) :: List.replicate 5 (quiet 1)

theorem samplePut_puts : Puts sampleStore sampleObject samplePut :=
  ⟨rfl, rfl, rfl, ⟨by decide, by decide⟩, fun _ h => nomatch h⟩

/-- Away from the copying of a `put` of the object, a quiet step is calm. -/
theorem calm_quiet {w : World Nat Nat} {i : Nat}
    (h : ∀ args got, w.procs i ≠ .put args (.copy got)) :
    Calm sampleStore sampleObject w (quiet i) :=
  ⟨rfl, fun args got hproc => absurd hproc (h args got)⟩

/-- The sample stream delivers the bytes and then its end. -/
theorem calm_chunk {w : World Nat Nat} {i : Nat} {got chunk : Bytes}
    (h : w.procs i = .put samplePut (.copy got)) (hpre : got ++ chunk <+: [7])
    (hend : chunk = [] → got = [7]) :
    Calm sampleStore sampleObject w (.step i false (.chunk chunk)) := by
  refine ⟨rfl, fun args got' hproc _ => ⟨chunk, rfl, ?_⟩⟩
  rw [h] at hproc
  cases hproc
  exact ⟨hpre, hend⟩

theorem sampleReturn_calm :
    Along (World.next sampleStore) (Calm sampleStore sampleObject) World.empty
      (sampleReturn ++ sampleReading) :=
  ⟨fun _ => samplePut_puts, calm_quiet nofun, calm_quiet nofun,
    calm_chunk rfl (by decide) (by decide), calm_chunk rfl (by decide) (by decide),
    calm_quiet nofun, calm_quiet nofun, calm_quiet nofun, calm_quiet nofun, calm_quiet nofun,
    trivial, calm_quiet nofun, calm_quiet nofun, calm_quiet nofun, calm_quiet nofun,
    calm_quiet nofun, trivial⟩

theorem sampleCrash_calm :
    Along (World.next sampleStore) (Calm sampleStore sampleObject) World.empty sampleCrash :=
  ⟨fun _ => samplePut_puts, calm_quiet nofun, calm_quiet nofun,
    calm_chunk rfl (by decide) (by decide), calm_chunk rfl (by decide) (by decide),
    calm_quiet nofun, calm_quiet nofun, trivial,
    fun _ => samplePut_puts, calm_quiet nofun, calm_quiet nofun,
    calm_chunk rfl (by decide) (by decide), calm_chunk rfl (by decide) (by decide),
    calm_quiet nofun, calm_quiet nofun, calm_quiet nofun, calm_quiet nofun, calm_quiet nofun,
    trivial⟩

/-- A completed `put` of the object, and a `read` that starts after it. -/
theorem put_idempotent_sample :
    (World.empty.run sampleStore (sampleReturn ++ sampleReading)).procs 0
      = .put samplePut (.finished (.ok (sampleObject.ref sampleStore))) ∧
    (World.empty.run sampleStore (sampleReturn ++ sampleReading)).procs 1
      = .read sampleRead (.finished (.ok [7])) := by
  have h := put_idempotent sampleStore sampleObject (sampleReturn ++ sampleReading) (by decide)
    sampleReturn_calm
  obtain ⟨outcome, hput⟩ : ∃ outcome, (World.empty.run sampleStore
      (sampleReturn ++ sampleReading)).procs 0 = .put samplePut (.finished (.ok outcome)) :=
    ⟨_, rfl⟩
  obtain ⟨data, hread⟩ : ∃ data, (World.empty.run sampleStore
      (sampleReturn ++ sampleReading)).procs 1 = .read sampleRead (.finished data) := ⟨_, rfl⟩
  constructor
  · rcases h.1 0 samplePut _ hput rfl with hok | ⟨herror, -⟩
    · rw [hput, hok]
    · cases herror
  · rw [hread, h.2 sampleReturn sampleReading 0 samplePut _ 1 sampleRead data rfl rfl rfl rfl hread
      ⟨rfl, rfl, by decide, by decide⟩]
    rfl

/-- With one `put` stopped, another `put` of the same bytes may fail. -/
theorem equal_put_refused :
    ¬ ∀ (env : StoreEnv Nat) (o : Object Nat) (es : List (Event Nat Nat)) (stopped : Nat),
      isDigest (env.hexdigest o.data) = true →
      Along (World.next env) (Calm env o) World.empty es →
      (∀ i, .crash i ∈ es → i = stopped) →
      ∀ put args outcome, (World.empty.run env es).procs put = .put args (.finished outcome) →
        args.key env = o.key env → outcome = .ok (o.ref env) := by
  intro h
  have hbad := h sampleStore sampleObject sampleCrash 0 (by decide) sampleCrash_calm
    (by simp [sampleCrash, sampleLink, quiet]) 1 samplePut _ rfl rfl
  cases hbad

end Polymind.Storage
