import Polymind.Security.Identity
import Polymind.Lib.Except
import Polymind.Lib.Traces
import Mathlib.Data.List.Chain
import Mathlib.Tactic.Linarith

/-!
# The signing keys are fresh

* `keysOf_eq_ok_iff`: the documents whose keys are taken are the wholly valid ones;
* `key_performs`: the four things a call of `_key` can do;
* `Sound`: the keys are those of the latest valid document, and fetches are apart;
* `key_cache_sound`: what follows for every run.
-/

namespace Polymind.Security

variable {E K : Type} {config : OIDCSettings} {jwk : Jwk E K}

/-! ### Valid documents -/

/-- An item of a valid document, the id of its key and the key. -/
structure ValidItem (config : OIDCSettings) (jwk : Jwk E K) (item : Dict Str Json) (kid : Str) (key : K) :
    Prop where
  named : item.get? "kid".toList = some (.str kid)
  kid_pos : 1 ≤ kid.length
  kid_le : kid.length ≤ 128
  signing : isSigningKey item = true
  numbers : hasNumbers item = true
  issuer : allowsIssuer config item = true
  parsed : jwk.fromDict item = .ok key
  size_ge : 2048 ≤ jwk.keySize key
  size_le : jwk.keySize key ≤ 8192

/-- The items of a valid document give one key each. -/
def ItemGives (config : OIDCSettings) (jwk : Jwk E K) (item : Json) (p : Str × K) : Prop :=
  ∃ fields, item = .obj fields ∧ ValidItem config jwk fields p.1 p.2

/-- A wholly valid document and its keys. -/
def ValidDocument (config : OIDCSettings) (jwk : Jwk E K) (raw : Json) (keys : Dict Str K) : Prop :=
  ∃ fields items, raw = .obj fields ∧ Dict.get? fields "keys".toList = some (.arr items) ∧
    1 ≤ items.length ∧ items.length ≤ 32 ∧ List.Forall₂ (ItemGives config jwk) items keys ∧
    (keys.map Prod.fst).Nodup

theorem addKey_eq_ok {keys keys' : Dict Str K} {item : Json} :
    addKey config jwk keys item = .ok keys' ↔
      ∃ p, ItemGives config jwk item p ∧ p.1 ∉ keys.map Prod.fst ∧ keys' = keys ++ [p] := by
  constructor
  · intro h
    unfold addKey at h
    split at h
    · next fields =>
      split at h
      · next kid hkid =>
        simp only [ite_error_eq_ok, Bool.or_eq_true, Bool.not_eq_true', not_or, Bool.not_eq_true,
          Bool.not_eq_false, Bool.and_eq_true, decide_eq_true_eq] at h
        obtain ⟨⟨hlength, hnew⟩, hsigning, hnumbers, hissuer, h⟩ := h
        split at h
        · cases h
        · next key hkey =>
          simp only [ite_error_eq_ok, not_or, not_lt] at h
          obtain ⟨hsize, h⟩ := h
          have hmem : kid ∉ keys.map Prod.fst := by
            rw [← Dict.has_iff, hnew]
            exact Bool.false_ne_true
          refine ⟨(kid, key), ⟨fields, rfl, ?_⟩, hmem, ?_⟩
          · exact ⟨hkid, hlength.1, hlength.2, hsigning, hnumbers, hissuer, hkey, hsize.1, hsize.2⟩
          · rw [← Except.ok.inj h, Dict.set_of_not_mem hmem]
      · cases h
    · cases h
  · rintro ⟨⟨kid, key⟩, ⟨fields, rfl, hitem⟩, hmem, rfl⟩
    have hnew : Dict.has keys kid = false := by
      rw [Bool.eq_false_iff, ne_eq, Dict.has_iff]
      exact hmem
    have hlength := And.intro hitem.kid_pos hitem.kid_le
    have hsize : (decide (jwk.keySize key < 2048) || decide (8192 < jwk.keySize key)) = false := by
      rw [Bool.or_eq_false_iff, decide_eq_false_iff_not, decide_eq_false_iff_not, not_lt, not_lt]
      exact ⟨hitem.size_ge, hitem.size_le⟩
    unfold addKey
    simp only [hitem.named, hitem.signing, hitem.numbers, hitem.issuer, hitem.parsed, hnew, hlength,
      hsize, Dict.set_of_not_mem hmem, decide_true, Bool.and_self, Bool.not_true, Bool.or_self,
      Bool.false_eq_true, if_false]

/-- The loop adds one key an item, under distinct ids. -/
theorem foldlM_addKey_eq_ok {items : List Json} {keys keys' : Dict Str K}
    (hkeys : (keys.map Prod.fst).Nodup) :
    items.foldlM (addKey config jwk) keys = .ok keys' ↔
      ∃ added, keys' = keys ++ added ∧ List.Forall₂ (ItemGives config jwk) items added ∧
        (keys'.map Prod.fst).Nodup := by
  induction items generalizing keys with
  | nil =>
    rw [List.foldlM_nil]
    constructor
    · intro h
      obtain rfl := Except.ok.inj h
      exact ⟨[], (List.append_nil _).symm, .nil, hkeys⟩
    · rintro ⟨added, rfl, hadded, -⟩
      cases hadded
      rw [List.append_nil]
      rfl
  | cons item items ih =>
    rw [List.foldlM_cons, bind_eq_ok]
    constructor
    · rintro ⟨mid, hmid, h⟩
      obtain ⟨p, hp, hnew, rfl⟩ := addKey_eq_ok.mp hmid
      have hnodup : ((keys ++ [p]).map Prod.fst).Nodup := by
        rw [List.map_append, List.map_singleton]
        exact List.nodup_append.mpr ⟨hkeys, List.nodup_singleton _, fun a ha b hb => by
          rw [List.mem_singleton.mp hb]
          rintro rfl
          exact hnew ha⟩
      obtain ⟨added, rfl, hadded, hnd⟩ := (ih hnodup).mp h
      exact ⟨p :: added, by rw [List.append_assoc, List.singleton_append], .cons hp hadded, hnd⟩
    · rintro ⟨added, rfl, hadded, hnd⟩
      cases hadded with
      | cons hp hrest =>
        next p rest =>
        have hassoc : keys ++ p :: rest = (keys ++ [p]) ++ rest := by
          rw [List.append_assoc, List.singleton_append]
        have hmid : ((keys ++ [p]).map Prod.fst).Nodup := by
          rw [hassoc, List.map_append] at hnd
          exact (List.nodup_append.mp hnd).1
        have hnew : p.1 ∉ keys.map Prod.fst := by
          rw [List.map_append, List.map_singleton] at hmid
          intro hm
          exact (List.nodup_append.mp hmid).2.2 _ hm _ (List.mem_singleton_self _) rfl
        exact ⟨keys ++ [p], addKey_eq_ok.mpr ⟨p, hp, hnew, rfl⟩, (ih hmid).mpr ⟨rest, hassoc, hrest, hnd⟩⟩

/-- The documents whose keys are taken are the wholly valid ones. -/
theorem keysOf_eq_ok_iff {raw : Json} {keys : Dict Str K} :
    keysOf config jwk raw = .ok keys ↔ ValidDocument config jwk raw keys := by
  have hloop (items : List Json) : items.foldlM (addKey config jwk) [] = .ok keys ↔
      ∃ added, keys = [] ++ added ∧ List.Forall₂ (ItemGives config jwk) items added ∧
        (keys.map Prod.fst).Nodup := foldlM_addKey_eq_ok List.nodup_nil
  constructor
  · intro h
    unfold keysOf at h
    split at h
    · next fields =>
      split at h
      · next items hitems =>
        split at h
        · next hlength =>
          simp only [Bool.and_eq_true, decide_eq_true_eq] at hlength
          obtain ⟨added, rfl, hadded, hnd⟩ := (hloop items).mp h
          exact ⟨fields, items, rfl, hitems, hlength.1, hlength.2, hadded, hnd⟩
        · cases h
      · cases h
    · cases h
  · rintro ⟨fields, items, rfl, hitems, hpos, hle, hadded, hnd⟩
    unfold keysOf
    simp only [hitems, hpos, hle, decide_true, Bool.and_self, if_true]
    exact (hloop items).mpr ⟨keys, rfl, hadded, hnd⟩

/-! ### One call -/

/-- The fetch gave a wholly valid document, with these keys. -/
def Fetch.Gives (config : OIDCSettings) (jwk : Jwk E K) (f : Fetch E) (keys : Dict Str K) : Prop :=
  ∃ raw, f.response = .ok raw ∧ ValidDocument config jwk raw keys

/-- The latest valid document of a log, the reading at which it was fetched and its keys. -/
def LatestValid (config : OIDCSettings) (jwk : Jwk E K) (fetches : List (Fetch E)) (t : ℚ)
    (keys : Dict Str K) : Prop :=
  ∃ later f earlier, fetches = later ++ f :: earlier ∧ f.reading = t ∧ f.Gives config jwk keys ∧
    ∀ g ∈ later, ∀ keys, ¬g.Gives config jwk keys

theorem latestValid_cons {f : Fetch E} {fetches : List (Fetch E)} {keys : Dict Str K}
    (h : f.Gives config jwk keys) : LatestValid config jwk (f :: fetches) f.reading keys :=
  ⟨[], f, fetches, rfl, rfl, h, fun _ hg => absurd hg List.not_mem_nil⟩

/-- A later fetch in vain does not matter. -/
theorem LatestValid.cons {f : Fetch E} {fetches : List (Fetch E)} {t : ℚ} {keys : Dict Str K}
    (h : LatestValid config jwk fetches t keys) (hf : ∀ keys, ¬f.Gives config jwk keys) :
    LatestValid config jwk (f :: fetches) t keys := by
  obtain ⟨later, g, earlier, rfl, hreading, hgives, hlater⟩ := h
  refine ⟨f :: later, g, earlier, rfl, hreading, hgives, ?_⟩
  intro g hg
  rcases List.mem_cons.mp hg with rfl | hg
  · exact hf
  · exact hlater g hg

theorem LatestValid.mem {fetches : List (Fetch E)} {t : ℚ} {keys : Dict Str K}
    (h : LatestValid config jwk fetches t keys) : ∃ f ∈ fetches, f.reading = t := by
  obtain ⟨later, f, earlier, rfl, hreading, -, -⟩ := h
  exact ⟨f, List.mem_append_right _ (List.mem_cons_self ..), hreading⟩

theorem elapsed_eq_false {seconds : Nat} {now : ℚ} {since : Option ℚ} :
    elapsed seconds now since = false ↔ ∃ t, since = some t ∧ now - t < seconds := by
  cases since with
  | none => simp [elapsed]
  | some t => simp [elapsed]

namespace OIDCVerifier

variable {v : OIDCVerifier E K} {c : KeyCall E}

/-- What a call of `_key` can do: serve a key it holds, refuse without a fetch, fetch in vain, or take the
keys of a valid document and look among them. -/
inductive Performs (config : OIDCSettings) (jwk : Jwk E K) (v : OIDCVerifier E K) (c : KeyCall E) :
    Except (KeyError E) K → OIDCVerifier E K → Prop
  | served (t : ℚ) (key : K) (loaded : v.loaded = some t) (fresh : c.now - t < config.cacheSeconds)
      (found : v.keys.get? c.kid = some key) : Performs config jwk v c (.ok key) v
  | refused (e : KeyError E) : Performs config jwk v c (.error e) v
  | failed (e : KeyError E) (due : elapsed config.refreshSeconds c.now v.attempted = true)
      (invalid : ∀ keys, ¬Fetch.Gives config jwk ⟨c.now, c.response⟩ keys) :
      Performs config jwk v c (.error e) (v.attempt c)
  | refreshed (keys : Dict Str K) (due : elapsed config.refreshSeconds c.now v.attempted = true)
      (valid : Fetch.Gives config jwk ⟨c.now, c.response⟩ keys) (answer : Except (KeyError E) K)
      (found : ∀ key, answer = .ok key → keys.get? c.kid = some key) :
      Performs config jwk v c answer { v.attempt c with keys, loaded := some c.now }

theorem lookup_eq_ok {kid : Str} {key : K} : v.lookup kid = .ok key ↔ v.keys.get? kid = some key := by
  unfold lookup
  split
  · next h => simp [h]
  · next h => simp [h]

/-- A document fetched now has not expired. -/
theorem elapsed_self (config : OIDCSettings) (now : ℚ) :
    elapsed config.cacheSeconds now (some now) = false := by
  rw [elapsed_eq_false]
  refine ⟨now, rfl, ?_⟩
  rw [sub_self]
  exact_mod_cast config.cacheSeconds_pos

/-- A key that is held is served until it expires, and nothing changes. -/
theorem key_of_fresh {t : ℚ} {key : K} (hloaded : v.loaded = some t)
    (hfresh : c.now - t < config.cacheSeconds) (hfound : v.keys.get? c.kid = some key) :
    v.key config jwk c = (.ok key, v) := by
  have hhas : v.keys.has c.kid = true := by
    rw [Dict.has_iff]
    exact List.mem_map_of_mem (Dict.mem_of_get? hfound)
  unfold OIDCVerifier.key
  rw [elapsed_eq_false.mpr ⟨t, hloaded, hfresh⟩, hhas, lookup_eq_ok.mpr hfound]
  rfl

/-- A verifier that is ready serves every key it holds, at the reading at which it says so. -/
theorem key_of_ready {now later : ℚ} {response response' : Except E Json} {kid : Str} {key : K}
    (hready : (v.ready config jwk now later response).1 = true)
    (hfound : (v.ready config jwk now later response).2.keys.get? kid = some key) :
    ((v.ready config jwk now later response).2.key config jwk ⟨kid, later, response'⟩).1
      = .ok key := by
  unfold ready at hready hfound ⊢
  simp only [Bool.and_eq_true, Bool.not_eq_true'] at hready
  obtain ⟨t, hloaded, hfresh⟩ := elapsed_eq_false.mp hready.2
  rw [key_of_fresh hloaded hfresh hfound]

/-- The answer from the keys that are held, when they have not expired. -/
theorem performs_lookup (h : elapsed config.cacheSeconds c.now v.loaded = false) :
    Performs config jwk v c (v.lookup c.kid) v := by
  obtain ⟨t, hloaded, hfresh⟩ := elapsed_eq_false.mp h
  cases hl : v.lookup c.kid with
  | error e => exact .refused e
  | ok key => exact .served t key hloaded hfresh (lookup_eq_ok.mp hl)

/-- A refresh that raises leaves the keys; one that returns has fetched a valid document. -/
theorem refresh_cases (config : OIDCSettings) (jwk : Jwk E K) (v : OIDCVerifier E K)
    (c : KeyCall E) :
    (∃ e, v.refresh config jwk c = (.error e, v.attempt c) ∧
      ∀ keys, ¬Fetch.Gives config jwk ⟨c.now, c.response⟩ keys) ∨
    ∃ keys, v.refresh config jwk c = (.ok (), { v.attempt c with keys, loaded := some c.now }) ∧
      Fetch.Gives config jwk ⟨c.now, c.response⟩ keys := by
  unfold refresh
  cases c.response with
  | error e =>
    refine .inl ⟨.foreign e, rfl, ?_⟩
    rintro keys ⟨raw, hraw, -⟩
    cases hraw
  | ok raw =>
    cases hk : keysOf config jwk raw with
    | error e =>
      refine .inl ⟨e, by simp only [hk], ?_⟩
      rintro keys ⟨raw', hraw, hvalid⟩
      obtain rfl := Except.ok.inj hraw
      rw [keysOf_eq_ok_iff.mpr hvalid] at hk
      cases hk
    | ok keys => exact .inr ⟨keys, by simp only [hk], raw, rfl, keysOf_eq_ok_iff.mp hk⟩

/-- A call does one of the four things. -/
theorem key_performs (config : OIDCSettings) (jwk : Jwk E K) (v : OIDCVerifier E K)
    (c : KeyCall E) :
    Performs config jwk v c (v.key config jwk c).1 (v.key config jwk c).2 := by
  unfold OIDCVerifier.key
  split
  · by_cases hdue : elapsed config.refreshSeconds c.now v.attempted = true
    · rw [if_pos hdue]
      rcases refresh_cases config jwk v c with ⟨e, he, hinvalid⟩ | ⟨keys, hk, hvalid⟩
      · rw [he]
        exact .failed e hdue hinvalid
      · rw [hk]
        simp only [elapsed_self, Bool.false_eq_true, if_false]
        exact .refreshed keys hdue hvalid _ fun key hkey => lookup_eq_ok.mp hkey
    · -- the last attempt was too recent
      rw [if_neg hdue]
      simp only
      split
      · exact .refused _
      · next h => exact performs_lookup (Bool.eq_false_iff.mpr h)
  · next h =>
    simp only [Bool.or_eq_true, not_or] at h
    exact performs_lookup (Bool.eq_false_iff.mpr h.1)

/-! ### Runs -/

/-- The state of a new verifier after a sequence of calls. -/
def run (config : OIDCSettings) (jwk : Jwk E K) (calls : List (KeyCall E)) : OIDCVerifier E K :=
  Traces.exec (next config jwk) {} calls

/-- The keys are those of the latest valid document, and fetches are apart. -/
structure Sound (config : OIDCSettings) (jwk : Jwk E K) (v : OIDCVerifier E K) : Prop where
  latest : ∀ t, v.loaded = some t → LatestValid config jwk v.fetches t v.keys
  attempted : v.attempted = v.fetches.head?.map Fetch.reading
  spaced : v.fetches.IsChain fun later earlier =>
    (config.refreshSeconds : ℚ) ≤ later.reading - earlier.reading

/-- No valid document is fetched in the call. -/
def Unrefreshed (config : OIDCSettings) (jwk : Jwk E K) (v : OIDCVerifier E K) (c : KeyCall E) : Prop :=
  ∀ f keys, (v.next config jwk c).fetches = f :: v.fetches → ¬f.Gives config jwk keys

/-- An attempt that is due comes long enough after the one before. -/
theorem Sound.spaced_attempt (h : Sound config jwk v)
    (hdue : elapsed config.refreshSeconds c.now v.attempted = true) :
    (v.attempt c).fetches.IsChain fun later earlier =>
      (config.refreshSeconds : ℚ) ≤ later.reading - earlier.reading := by
  have hspaced := h.spaced
  rw [h.attempted] at hdue
  unfold attempt
  cases hf : v.fetches with
  | nil => exact .singleton _
  | cons f fetches =>
    rw [hf] at hdue hspaced
    apply List.isChain_cons_cons.mpr
    exact ⟨by simpa [elapsed] using hdue, hspaced⟩

theorem Sound.next (h : Sound config jwk v) (c : KeyCall E) :
    Sound config jwk (v.next config jwk c) := by
  have hperforms := key_performs config jwk v c
  unfold OIDCVerifier.next
  generalize v.key config jwk c = r at hperforms
  obtain ⟨answer, v'⟩ := r
  cases hperforms with
  | served => exact h
  | refused => exact h
  | failed e hdue hinvalid =>
    exact ⟨fun t ht => (h.latest t ht).cons hinvalid, rfl, h.spaced_attempt hdue⟩
  | refreshed keys hdue hvalid _ _ =>
    refine ⟨?_, rfl, h.spaced_attempt hdue⟩
    intro t ht
    obtain rfl := Option.some.inj ht
    exact latestValid_cons hvalid

theorem run_sound (config : OIDCSettings) (jwk : Jwk E K) (calls : List (KeyCall E)) :
    Sound config jwk (run config jwk calls) := by
  apply Traces.exec_invariant (Sound config jwk) (fun _ c _ h => h.next c)
    (Traces.along_true _ calls)
  refine ⟨?_, rfl, .nil⟩
  intro t ht
  cases ht

/-- A key that is returned is in the latest valid document, which has not expired. -/
theorem Sound.of_key {key : K} (h : Sound config jwk v) (hkey : (v.key config jwk c).1 = .ok key) :
    ∃ t keys, LatestValid config jwk (v.next config jwk c).fetches t keys ∧
      keys.get? c.kid = some key ∧ c.now - t < config.cacheSeconds := by
  have hperforms := key_performs config jwk v c
  unfold OIDCVerifier.next
  generalize v.key config jwk c = r at hkey hperforms
  obtain ⟨answer, v'⟩ := r
  cases hperforms with
  | served t key' hloaded hfresh hfound =>
    obtain rfl := Except.ok.inj hkey
    exact ⟨t, _, h.latest t hloaded, hfound, hfresh⟩
  | refused => cases hkey
  | failed => cases hkey
  | refreshed keys _ hvalid _ hfound =>
    obtain ⟨t, ht, hfresh⟩ := elapsed_eq_false.mp (elapsed_self config c.now)
    obtain rfl := Option.some.inj ht
    exact ⟨c.now, keys, latestValid_cons hvalid, hfound key hkey, hfresh⟩

/-- Every fetch of a run was made in one of its calls. -/
theorem mem_fetches {calls : List (KeyCall E)} {f : Fetch E}
    (h : f ∈ (run config jwk calls).fetches) : ∃ c ∈ calls, f.reading = c.now := by
  have hmem : Traces.Along (OIDCVerifier.next config jwk) (fun _ c => c ∈ calls) {} calls := by
    apply Traces.along_of_prefix
    rintro before c rest rfl
    exact List.mem_append_right _ (List.mem_cons_self ..)
  refine Traces.exec_invariant (fun w => ∀ f ∈ w.fetches, ∃ c ∈ calls, f.reading = c.now) ?_ hmem
    (fun _ hf => absurd hf List.not_mem_nil) f h
  intro w c hc hw
  have hattempt : ∀ f ∈ (w.attempt c).fetches, ∃ c ∈ calls, f.reading = c.now := by
    intro f hf
    rcases List.mem_cons.mp hf with rfl | hf
    · exact ⟨c, hc, rfl⟩
    · exact hw f hf
  have hperforms := key_performs config jwk w c
  unfold OIDCVerifier.next
  generalize w.key config jwk c = r at hperforms
  obtain ⟨answer, w'⟩ := r
  cases hperforms with
  | served => exact hw
  | refused => exact hw
  | failed => exact hattempt
  | refreshed => exact hattempt

/-- Without a valid document the keys and their load time stay. -/
theorem next_of_unrefreshed (h : Unrefreshed config jwk v c) :
    (v.next config jwk c).keys = v.keys ∧ (v.next config jwk c).loaded = v.loaded := by
  have hperforms := key_performs config jwk v c
  unfold Unrefreshed at h
  unfold OIDCVerifier.next at h ⊢
  generalize v.key config jwk c = r at h hperforms
  obtain ⟨answer, v'⟩ := r
  cases hperforms with
  | served => exact ⟨rfl, rfl⟩
  | refused => exact ⟨rfl, rfl⟩
  | failed => exact ⟨rfl, rfl⟩
  | refreshed keys _ hvalid _ _ => exact absurd hvalid (h _ keys rfl)

theorem exec_of_unrefreshed {calls : List (KeyCall E)}
    (h : Traces.Along (OIDCVerifier.next config jwk) (Unrefreshed config jwk) v calls) :
    (Traces.exec (OIDCVerifier.next config jwk) v calls).keys = v.keys ∧
      (Traces.exec (OIDCVerifier.next config jwk) v calls).loaded = v.loaded := by
  refine Traces.exec_invariant (fun w => w.keys = v.keys ∧ w.loaded = v.loaded) ?_ h ⟨rfl, rfl⟩
  rintro w c hc ⟨hkeys, hloaded⟩
  obtain ⟨hkeys', hloaded'⟩ := next_of_unrefreshed hc
  exact ⟨hkeys'.trans hkeys, hloaded'.trans hloaded⟩

/-- The signing keys are fresh, fetches are rate-limited, and a fetch in vain changes no key: a key that
is returned is in the latest valid document, fetched less than `cache_seconds` before; consecutive fetches
are `refresh_seconds` apart; and through calls without a valid document the keys and their load time stay,
and the keys are served until they expire. -/
theorem key_cache_sound (config : OIDCSettings) (jwk : Jwk E K) (calls : List (KeyCall E))
    (hclock : calls.Pairwise fun c d => c.now ≤ d.now) :
    (∀ before c after key, calls = before ++ c :: after →
      ((run config jwk before).key config jwk c).1 = .ok key →
      ∃ t keys, LatestValid config jwk (run config jwk (before ++ [c])).fetches t keys ∧
        keys.get? c.kid = some key ∧ t ≤ c.now ∧ c.now - t < config.cacheSeconds) ∧
    ((run config jwk calls).fetches.IsChain fun later earlier =>
      (config.refreshSeconds : ℚ) ≤ later.reading - earlier.reading) ∧
    ∀ before failing after, calls = before ++ (failing ++ after) →
      Traces.Along (OIDCVerifier.next config jwk) (Unrefreshed config jwk) (run config jwk before) failing →
      (run config jwk (before ++ failing)).keys = (run config jwk before).keys ∧
      (run config jwk (before ++ failing)).loaded = (run config jwk before).loaded ∧
      ∀ c rest t key, after = c :: rest → (run config jwk before).loaded = some t →
        (run config jwk before).keys.get? c.kid = some key → c.now - t < config.cacheSeconds →
        ((run config jwk (before ++ failing)).key config jwk c).1 = .ok key := by
  refine ⟨?_, (run_sound config jwk calls).spaced, ?_⟩
  · rintro before c after key rfl hkey
    have hrun : run config jwk (before ++ [c]) = (run config jwk before).next config jwk c :=
      Traces.exec_append _ _ _ _
    obtain ⟨t, keys, hlatest, hfound, hfresh⟩ := (run_sound config jwk before).of_key hkey
    rw [← hrun] at hlatest
    refine ⟨t, keys, hlatest, hfound, ?_, hfresh⟩
    -- the fetch was made in this call or in an earlier one
    obtain ⟨f, hf, rfl⟩ := hlatest.mem
    obtain ⟨d, hd, hreading⟩ := mem_fetches hf
    rw [hreading]
    rcases List.mem_append.mp hd with hd | hd
    · exact (List.pairwise_append.mp hclock).2.2 d hd c (List.mem_cons_self ..)
    · rw [List.mem_singleton.mp hd]
  · intro before failing after _ hfailing
    have hrun : run config jwk (before ++ failing)
        = Traces.exec (OIDCVerifier.next config jwk) (run config jwk before) failing :=
      Traces.exec_append _ _ _ _
    obtain ⟨hkeys, hloaded⟩ := exec_of_unrefreshed hfailing
    rw [← hrun] at hkeys hloaded
    refine ⟨hkeys, hloaded, ?_⟩
    intro c rest t key _ ht hfound hfresh
    rw [← hloaded] at ht
    rw [← hkeys] at hfound
    rw [key_of_fresh ht hfresh hfound]

/-- A document with one key, whose modulus has 2048 bits. -/
def sampleDocument : Json :=
  .obj [("keys".toList, .arr [.obj [("kid".toList, .str ['a']), ("kty".toList, .str "RSA".toList),
    ("n".toList, .str (List.replicate 342 'v')), ("e".toList, .str "AQAB".toList)]])]

/-- A key as the base64 text of its modulus. -/
def sampleJwk : Jwk Unit Str where
  fromDict item :=
    match item.get? "n".toList with
    | some (.str n) => .ok n
    | _ => .error ()
  keySize n := n.length * 6 / 8 * 8

/-- A key is fetched; another id is asked for too soon, and again when the fetch raises. -/
def sampleCalls : List (KeyCall Unit) :=
  [⟨['a'], 0, .ok sampleDocument⟩, ⟨['b'], 10, .error ()⟩, ⟨['b'], 40, .error ()⟩]

/-- The key is served fifty seconds after its document was fetched. -/
theorem key_cache_sound_sample :
    ∃ t keys, LatestValid (.ofIssuer ['i']) sampleJwk
        (run (.ofIssuer ['i']) sampleJwk (sampleCalls ++ [⟨['a'], 50, .error ()⟩])).fetches t keys ∧
      keys.get? ['a'] = some (List.replicate 342 'v') ∧ t ≤ 50 ∧
      50 - t < (OIDCSettings.ofIssuer ['i']).cacheSeconds :=
  (key_cache_sound (.ofIssuer ['i']) sampleJwk (sampleCalls ++ [⟨['a'], 50, .error ()⟩])
    (by decide +kernel)).1 sampleCalls ⟨['a'], 50, .error ()⟩ [] _ rfl (by decide +kernel)

end OIDCVerifier

end Polymind.Security
