import Polymind.Memory.MemoryStore
import Polymind.Lib.Except
import Mathlib.Data.Set.Operations

/-!
# The two stores are one

`sinceClear` is what a conversation memory is for: the messages of a session since it was last
cleared, of which `due` are the ones a call returns.  Each store keeps the last `history_limit` of
them for every session (`FileTracks`, `RedisTracks`); what it keeps determines its answers, and
`answers_due` carries this through a sequence of calls.
-/

namespace Polymind.Memory

open Slices

/-! ### What a memory is for -/

/-- What a call makes of the messages of a session. -/
def remember (sessionId : Str) (messages : List (Str × Str)) : Call → List (Str × Str)
  | .appendExchange s query answer =>
    if s = sessionId then messages ++ [(user, query), (assistant, answer)] else messages
  | .clearSession s => if s = sessionId then [] else messages
  | .getHistory _ _ => messages

/-- The messages appended to a session since its last clear. -/
def sinceClear (sessionId : Str) (calls : List Call) : List (Str × Str) :=
  calls.foldl (remember sessionId) []

theorem sinceClear_concat (sessionId : Str) (calls : List Call) (c : Call) :
    sinceClear sessionId (calls ++ [c]) = remember sessionId (sinceClear sessionId calls) c := by
  rw [sinceClear, List.foldl_append]
  rfl

/-- The answer due to a call after some others: of the history, the last messages within both
limits. -/
def due (historyLimit : Int) (done : List Call) : Call → Answer
  | .getHistory sessionId limit => some (.ok
      ((sinceClear sessionId done).rtake (min (limit.getD historyLimit) historyLimit).toNat))
  | _ => none

/-- The answers due to a sequence of calls. -/
def expected (historyLimit : Int) : List Call → List Call → List Answer
  | _, [] => []
  | done, c :: calls => due historyLimit done c :: expected historyLimit (done ++ [c]) calls

/-- The limit of a call is absent or not negative. -/
def Call.limitValid : Call → Prop
  | .getHistory _ limit => ∀ n ∈ limit, (0 : Int) ≤ n
  | _ => True

/-- A store that keeps track of the calls gives the answers that are due. -/
theorem answers_due {S : Type} {next : S → Stamps × Call → S × Answer} {historyLimit : Int}
    (valid : Call → Prop) (Tracks : S → List Call → Prop)
    (hnext : ∀ store done now c, valid c → Tracks store done →
      Tracks (next store (now, c)).1 (done ++ [c]))
    (hanswer : ∀ store done now c, valid c → Tracks store done →
      (next store (now, c)).2 = due historyLimit done c)
    {calls : List (Stamps × Call)} (hvalid : ∀ c ∈ calls, valid c.2) {store : S} {done : List Call}
    (h : Tracks store done) :
    answers next store calls = expected historyLimit done (calls.map Prod.snd) := by
  induction calls generalizing store done with
  | nil => rfl
  | cons c calls ih =>
    obtain ⟨now, c⟩ := c
    have hc := hvalid _ (List.mem_cons_self ..)
    rw [answers, List.map_cons, expected, hanswer store done now c hc h,
      ih (fun d hd => hvalid d (List.mem_cons_of_mem _ hd)) (hnext store done now c hc h)]

theorem contents_append (a b : List Message) : contents (a ++ b) = contents a ++ contents b :=
  List.map_append

theorem contents_rtake (n : Nat) (messages : List Message) :
    contents (messages.rtake n) = (contents messages).rtake n :=
  map_rtake _ n messages

theorem contents_exchange (query answer : Str) (now : Stamps) :
    contents (exchange query answer now) = [(user, query), (assistant, answer)] := rfl

/-- What is returned of what is kept. -/
theorem rtake_limit {messages kept : List (Str × Str)} {historyLimit : Int} (limit : Int)
    (h : kept = messages.rtake historyLimit.toNat) :
    kept.rtake limit.toNat = messages.rtake (min limit historyLimit).toNat := by
  rw [h, rtake_rtake]
  congr 1
  omega

/-! ### The file -/

/-- The entries of a session. -/
def ofSession (sessionId : Str) (data : List Entry) : List Entry :=
  data.filter fun item => item.sessionId = sessionId

/-- The file keeps the last messages of every session. -/
structure FileTracks (historyLimit : Int) (store : FileMemoryStore) (done : List Call) : Prop where
  limit : store.historyLimit = historyLimit
  kept : ∀ sessionId, contents ((ofSession sessionId store.read).map Entry.message)
    = (sinceClear sessionId done).rtake historyLimit.toNat

theorem ofSession_append (sessionId : Str) (a b : List Entry) :
    ofSession sessionId (a ++ b) = ofSession sessionId a ++ ofSession sessionId b :=
  List.filter_append ..

theorem ofSession_map_mk (sessionId s : Str) (messages : List Message) :
    ofSession sessionId (messages.map (Entry.mk s))
      = if s = sessionId then messages.map (Entry.mk s) else [] := by
  unfold ofSession
  split
  · rename_i hs
    rw [List.filter_eq_self]
    intro item hitem
    obtain ⟨m, _, rfl⟩ := List.mem_map.mp hitem
    exact decide_eq_true hs
  · rename_i hs
    rw [List.filter_eq_nil_iff]
    intro item hitem
    obtain ⟨m, _, rfl⟩ := List.mem_map.mp hitem
    rw [decide_eq_true_eq]
    exact hs

namespace FileMemoryStore

variable {store : FileMemoryStore}

/-- The file after an exchange: the session's entries are trimmed by their positions. -/
theorem read_appendExchange (store : FileMemoryStore) (s query answer : Str) (now : Stamps) :
    (store.appendExchange s query answer now).read
      = without (store.read ++ (exchange query answer now).map (Entry.mk s))
          (sliceTo (positions (fun item => item.sessionId = s)
            (store.read ++ (exchange query answer now).map (Entry.mk s))) (-store.historyLimit)) := by
  unfold appendExchange
  dsimp only
  split
  · rename_i hempty
    rw [List.isEmpty_iff.mp hempty, without_nil]
    rfl
  · rfl

/-- Another session's entries stay as they are. -/
theorem ofSession_appendExchange_ne (hlimit : 1 ≤ store.historyLimit) {s t : Str} (h : s ≠ t)
    (query answer : Str) (now : Stamps) :
    ofSession t (store.appendExchange s query answer now).read = ofSession t store.read := by
  rw [read_appendExchange, sliceTo_neg hlimit, List.rdrop, ofSession, filter_without_of_disjoint]
  · have happend := ofSession_append t store.read ((exchange query answer now).map (Entry.mk s))
    rw [ofSession_map_mk, if_neg h, List.append_nil] at happend
    exact happend
  · intro item ht
    rw [decide_eq_true_eq] at ht
    rw [decide_eq_false_iff_not, ht]
    exact h.symm

/-- The session's own entries are the last ones with the exchange. -/
theorem ofSession_appendExchange (hlimit : 1 ≤ store.historyLimit) (s query answer : Str)
    (now : Stamps) : ofSession s (store.appendExchange s query answer now).read
      = (ofSession s store.read ++ (exchange query answer now).map (Entry.mk s)).rtake
          store.historyLimit.toNat := by
  have happend := ofSession_append s store.read ((exchange query answer now).map (Entry.mk s))
  rw [ofSession_map_mk, if_pos rfl] at happend
  rw [read_appendExchange, sliceTo_neg hlimit, List.rdrop, ofSession, filter_without,
    length_positions, ← happend, ofSession, List.rtake]

theorem ofSession_clearSession (s t : Str) :
    ofSession t (store.clearSession s).read = if s = t then [] else ofSession t store.read := by
  show ofSession t (store.read.filter fun item => item.sessionId ≠ s) = _
  unfold ofSession
  rw [List.filter_filter]
  split
  · rename_i hs
    rw [List.filter_eq_nil_iff]
    intro item _
    simp [hs]
  · rename_i hs
    apply List.filter_congr
    intro item _
    by_cases ht : item.sessionId = t
    · have hne : t ≠ s := fun he => hs he.symm
      simp [ht, hne]
    · simp [ht]

/-- An operation on one session never changes what another returns. -/
theorem getHistory_next_ne (hlimit : 1 ≤ store.historyLimit) (now : Stamps) {c : Call} {t : Str}
    (h : c.sessionId ≠ t) (limit : Option Int) :
    (store.next (now, c)).1.getHistory t limit = store.getHistory t limit := by
  have hsame : ofSession t (store.next (now, c)).1.read = ofSession t store.read := by
    cases c with
    | appendExchange s query answer => exact ofSession_appendExchange_ne hlimit h query answer now
    | clearSession s => exact (ofSession_clearSession s t).trans (if_neg h)
    | getHistory s limit => rfl
  have hhistory : (store.next (now, c)).1.historyLimit = store.historyLimit := by
    cases c <;> rfl
  unfold getHistory
  rw [hhistory]
  show (if _ then sliceFrom (ofSession t (store.next (now, c)).1.read) _ else []) = _
  rw [hsame]
  rfl

end FileMemoryStore

variable {historyLimit : Int} (hlimit : 1 ≤ historyLimit)
include hlimit

theorem fileTracks_next {store : FileMemoryStore} {done : List Call} (now : Stamps) (c : Call)
    (h : FileTracks historyLimit store done) :
    FileTracks historyLimit (store.next (now, c)).1 (done ++ [c]) := by
  have hstore : 1 ≤ store.historyLimit := h.limit ▸ hlimit
  cases c with
  | appendExchange s query answer =>
    refine ⟨h.limit, fun t => ?_⟩
    rw [sinceClear_concat, remember]
    by_cases hs : s = t
    · subst hs
      have hown : ofSession s (store.next (now, .appendExchange s query answer)).1.read = _ :=
        FileMemoryStore.ofSession_appendExchange hstore s query answer now
      have hmap : ((exchange query answer now).map (Entry.mk s)).map Entry.message
          = exchange query answer now := rfl
      -- what was cut off before would be cut off now
      rw [hown, if_pos rfl, map_rtake, contents_rtake, List.map_append, hmap, contents_append,
        contents_exchange, h.kept, h.limit, rtake_append_rtake]
    · have hother : ofSession t (store.next (now, .appendExchange s query answer)).1.read = _ :=
        FileMemoryStore.ofSession_appendExchange_ne hstore hs query answer now
      rw [hother, if_neg hs, h.kept]
  | clearSession s =>
    refine ⟨h.limit, fun t => ?_⟩
    have hcleared : ofSession t (store.next (now, .clearSession s)).1.read = _ :=
      FileMemoryStore.ofSession_clearSession s t
    rw [hcleared, sinceClear_concat, remember]
    split
    · rw [List.rtake_nil]
      rfl
    · exact h.kept t
  | getHistory s limit =>
    refine ⟨h.limit, fun t => ?_⟩
    rw [sinceClear_concat, remember]
    exact h.kept t

theorem one_le_getD {limit : Option Int} (hvalid : ∀ n ∈ limit, (0 : Int) ≤ n)
    (hne : limit.getD historyLimit ≠ 0) : 1 ≤ limit.getD historyLimit := by
  cases limit with
  | none => exact hlimit
  | some n =>
    have hn := hvalid n rfl
    rw [Option.getD_some] at hne ⊢
    omega

theorem file_answer {store : FileMemoryStore} {done : List Call} (now : Stamps) (c : Call)
    (hvalid : c.limitValid) (h : FileTracks historyLimit store done) :
    (store.next (now, c)).2 = due historyLimit done c := by
  cases c with
  | appendExchange s query answer => rfl
  | clearSession s => rfl
  | getHistory s limit =>
    unfold FileMemoryStore.next due FileMemoryStore.getHistory
    dsimp only
    rw [h.limit]
    congr 2
    split
    · rename_i hne
      have hone := one_le_getD hlimit hvalid hne
      rw [sliceFrom_neg hone, map_rtake, contents_rtake, ← rtake_limit _ (h.kept s)]
      rfl
    · rename_i hzero
      rw [not_not] at hzero
      rw [hzero, show (min (0 : Int) historyLimit).toNat = 0 by omega, List.rtake_zero]
      rfl

/-! ### Redis -/

omit hlimit

namespace Redis

/-- Negative offsets down to the last give the last values. -/
theorem range_neg {i : Int} (h : 1 ≤ i) (values : List Message) :
    range values (-i) (-1) = values.rtake i.toNat := by
  unfold range
  rw [if_pos (by omega), if_pos (by omega)]
  have hdrop : (max 0 (-i + values.length)).toNat = values.length - i.toNat := by omega
  have htake : (-1 + (values.length : Int) + 1 - max 0 (-i + values.length)).toNat
      = values.length - (values.length - i.toNat) := by omega
  dsimp only
  rw [hdrop, htake, List.rtake, ← List.length_drop, List.take_length]

/-- The values of a key. -/
def values (db : Redis) (key : Str) : List Message := (db.get? key).getD []

theorem values_delete (db : Redis) (k k' : Str) :
    (db.delete k).values k' = if k = k' then [] else db.values k' := by
  unfold values delete
  rw [Dict.get?_filter_ne]
  split <;> rfl

theorem values_put (db : Redis) (k k' : Str) (l : List Message) :
    (db.put k l).values k' = if k = k' then l else db.values k' := by
  unfold put
  split
  · rename_i hempty
    rw [values_delete, List.isEmpty_iff.mp hempty]
  · unfold values
    rw [Dict.get?_set]
    by_cases hk : k = k'
    · rw [if_pos hk, if_pos hk.symm]
      rfl
    · rw [if_neg hk, if_neg fun he => hk he.symm]

/-- The transaction of an exchange. -/
theorem values_transaction {historyLimit : Int} (hlimit : 1 ≤ historyLimit) (db : Redis) (k k' : Str)
    (l : List Message) :
    (db.transaction [.rpush k l, .ltrim k (-historyLimit) (-1)]).values k'
      = if k = k' then (db.values k ++ l).rtake historyLimit.toNat else db.values k' := by
  show ((db.put k (db.values k ++ l)).put k
    (range ((db.put k (db.values k ++ l)).values k) (-historyLimit) (-1))).values k' = _
  rw [values_put, values_put, if_pos rfl, range_neg hlimit, values_put]
  split <;> rfl

end Redis

/-- Redis keeps the last messages of every session. -/
structure RedisTracks (sha256 : Str → Str) (sessions : Set Str) (historyLimit : Int)
    (store : RedisMemoryStore) (done : List Call) : Prop where
  limit : store.historyLimit = historyLimit
  kept : ∀ sessionId ∈ sessions, contents (store.client.values (store.key sha256 sessionId))
    = (sinceClear sessionId done).rtake historyLimit.toNat

/-- Every message is of the user or of the assistant. -/
theorem role_of_mem_sinceClear {sessionId : Str} {calls : List Call} {m : Str × Str}
    (h : m ∈ sinceClear sessionId calls) : m.1 ∈ [user, assistant] := by
  induction calls using List.reverseRecOn with
  | nil => cases h
  | append_singleton calls c ih =>
    rw [sinceClear_concat] at h
    cases c with
    | appendExchange s query answer =>
      rw [remember] at h
      split at h
      · rcases List.mem_append.mp h with hm | hm
        · exact ih hm
        · rcases List.mem_pair.mp hm with rfl | rfl
          · exact List.mem_cons_self ..
          · exact List.mem_cons_of_mem _ (List.mem_cons_self ..)
      · exact ih h
    | clearSession s =>
      rw [remember] at h
      split at h
      · cases h
      · exact ih h
    | getHistory s limit => exact ih h

variable {sha256 : Str → Str} {sessions : Set Str}

/-- Sessions have keys of their own. -/
theorem key_inj (hsha : Set.InjOn sha256 sessions) {store : RedisMemoryStore} {s t : Str}
    (hs : s ∈ sessions) (ht : t ∈ sessions) : store.key sha256 s = store.key sha256 t ↔ s = t := by
  constructor
  · intro h
    exact hsha hs ht (List.cons.inj (List.append_cancel_left h)).2
  · rintro rfl
    rfl

theorem redisTracks_next (hlimit : 1 ≤ historyLimit) (hsha : Set.InjOn sha256 sessions)
    {store : RedisMemoryStore} {done : List Call} (now : Stamps) (c : Call)
    (hc : c.sessionId ∈ sessions) (h : RedisTracks sha256 sessions historyLimit store done) :
    RedisTracks sha256 sessions historyLimit (store.next sha256 (now, c)).1 (done ++ [c]) := by
  cases c with
  | appendExchange s query answer =>
    refine ⟨h.limit, fun t ht => ?_⟩
    have hvalues : (store.next sha256 (now, .appendExchange s query answer)).1.client.values
        (store.key sha256 t) = _ :=
      Redis.values_transaction (h.limit ▸ hlimit) store.client (store.key sha256 s) (store.key sha256 t)
        (exchange query answer now)
    have hkey : store.key sha256 s = store.key sha256 t ↔ s = t := key_inj hsha hc ht
    show contents ((store.next sha256 (now, .appendExchange s query answer)).1.client.values
      (store.key sha256 t)) = _
    rw [hvalues, sinceClear_concat, remember]
    simp only [hkey]
    split
    · rename_i hs
      rw [contents_rtake, contents_append, contents_exchange, h.kept s hc, h.limit, hs,
        rtake_append_rtake]
    · exact h.kept t ht
  | clearSession s =>
    refine ⟨h.limit, fun t ht => ?_⟩
    have hvalues : (store.next sha256 (now, .clearSession s)).1.client.values (store.key sha256 t) = _ :=
      Redis.values_delete store.client (store.key sha256 s) (store.key sha256 t)
    have hkey : store.key sha256 s = store.key sha256 t ↔ s = t := key_inj hsha hc ht
    show contents ((store.next sha256 (now, .clearSession s)).1.client.values (store.key sha256 t)) = _
    rw [hvalues, sinceClear_concat, remember]
    simp only [hkey]
    split
    · rw [List.rtake_nil]
      rfl
    · exact h.kept t ht
  | getHistory s limit =>
    refine ⟨h.limit, fun t ht => ?_⟩
    rw [sinceClear_concat, remember]
    exact h.kept t ht

/-- Every value that is kept passes the check of `get_history`. -/
theorem mapM_decode {messages : List Message} (h : ∀ m ∈ contents messages, m.1 ∈ [user, assistant]) :
    messages.mapM RedisMemoryStore.decode = .ok messages := by
  rw [mapM_eq_ok, List.forall₂_same]
  intro m hm
  have hrole : m.role ∈ [user, assistant] := h _ (List.mem_map_of_mem hm)
  simp only [List.mem_cons, List.not_mem_nil, or_false] at hrole
  exact if_pos hrole

theorem redis_answer (hlimit : 1 ≤ historyLimit) {store : RedisMemoryStore} {done : List Call}
    (now : Stamps) (c : Call) (hc : c.sessionId ∈ sessions) (hvalid : c.limitValid)
    (h : RedisTracks sha256 sessions historyLimit store done) :
    (store.next sha256 (now, c)).2 = due historyLimit done c := by
  cases c with
  | appendExchange s query answer => rfl
  | clearSession s => rfl
  | getHistory s limit =>
    unfold RedisMemoryStore.next due RedisMemoryStore.getHistory
    dsimp only
    rw [h.limit]
    congr 1
    split
    · rename_i hzero
      rw [hzero, show (min (0 : Int) historyLimit).toNat = 0 by omega, List.rtake_zero]
      rfl
    · rename_i hne
      have hone := one_le_getD hlimit hvalid hne
      have hkept := h.kept s hc
      have hdue := rtake_limit (limit.getD historyLimit) hkept
      rw [← contents_rtake] at hdue
      have hrange : store.client.lrange (store.key sha256 s) (-limit.getD historyLimit) (-1)
          = (store.client.values (store.key sha256 s)).rtake (limit.getD historyLimit).toNat :=
        Redis.range_neg hone _
      rw [hrange, mapM_decode, ← hdue]
      · rfl
      · intro m hm
        rw [hdue] at hm
        exact role_of_mem_sinceClear (List.mem_of_mem_drop hm)

/-- An operation on one session never changes what another returns. -/
theorem redis_getHistory_next_ne {store : RedisMemoryStore} (hlimit : 1 ≤ store.historyLimit)
    (hsha : Set.InjOn sha256 sessions) (now : Stamps) {c : Call} {t : Str}
    (hc : c.sessionId ∈ sessions) (ht : t ∈ sessions) (h : c.sessionId ≠ t) (limit : Option Int) :
    (store.next sha256 (now, c)).1.getHistory sha256 t limit = store.getHistory sha256 t limit := by
  have hkey : store.key sha256 c.sessionId ≠ store.key sha256 t := fun he =>
    h ((key_inj hsha hc ht).mp he)
  have hvalues : (store.next sha256 (now, c)).1.client.values (store.key sha256 t)
      = store.client.values (store.key sha256 t) := by
    cases c with
    | appendExchange s query answer =>
      exact (Redis.values_transaction hlimit ..).trans (if_neg hkey)
    | clearSession s => exact (Redis.values_delete ..).trans (if_neg hkey)
    | getHistory s limit => rfl
  have hrange (start stop : Int) :
      (store.next sha256 (now, c)).1.client.lrange (store.key sha256 t) start stop
        = store.client.lrange (store.key sha256 t) start stop := by
    unfold Redis.lrange
    exact congrArg (Redis.range · start stop) hvalues
  have hstore : (store.next sha256 (now, c)).1.historyLimit = store.historyLimit ∧
      (store.next sha256 (now, c)).1.key sha256 t = store.key sha256 t := by
    cases c <;> exact ⟨rfl, rfl⟩
  unfold RedisMemoryStore.getHistory
  rw [hstore.1, hstore.2]
  simp only [hrange]

/-! ### Both stores -/

/-- **The two conversation stores are observationally equal.**  From empty stores, the same calls have
the same answers, whatever the clock says: of the messages appended to a session since its last
clear, the last within the limit of the call and of the store, in order.  An operation on one session
never changes what another session returns. -/
theorem stores_equal (sha256 : Str → Str) (keyPrefix : Str) {historyLimit : Int}
    (hlimit : 1 ≤ historyLimit) {sessions : Set Str} (hsha : Set.InjOn sha256 sessions)
    {fileCalls redisCalls : List (Stamps × Call)}
    (hsame : fileCalls.map Prod.snd = redisCalls.map Prod.snd)
    (hvalid : ∀ c ∈ fileCalls.map Prod.snd, c.sessionId ∈ sessions ∧ c.limitValid) :
    answers FileMemoryStore.next ⟨historyLimit, none⟩ fileCalls
        = expected historyLimit [] (fileCalls.map Prod.snd) ∧
      answers (RedisMemoryStore.next sha256) ⟨[], historyLimit, keyPrefix⟩ redisCalls
        = expected historyLimit [] (fileCalls.map Prod.snd) ∧
      ∀ (now : Stamps) (c : Call) (t : Str) (limit : Option Int), c.sessionId ∈ sessions →
        t ∈ sessions → c.sessionId ≠ t →
        (∀ store : FileMemoryStore, store.historyLimit = historyLimit →
          (store.next (now, c)).1.getHistory t limit = store.getHistory t limit) ∧
        ∀ store : RedisMemoryStore, store.historyLimit = historyLimit →
          (store.next sha256 (now, c)).1.getHistory sha256 t limit
            = store.getHistory sha256 t limit := by
  refine ⟨?_, ?_, ?_⟩
  · apply answers_due (fun c => c.sessionId ∈ sessions ∧ c.limitValid) (FileTracks historyLimit)
    · exact fun _ _ now c _ h => fileTracks_next hlimit now c h
    · exact fun _ _ now c hc h => file_answer hlimit now c hc.2 h
    · exact fun c hc => hvalid c.2 (List.mem_map_of_mem hc)
    · exact ⟨rfl, fun _ => (List.rtake_nil ..).symm⟩
  · rw [hsame] at hvalid ⊢
    apply answers_due (fun c => c.sessionId ∈ sessions ∧ c.limitValid)
      (RedisTracks sha256 sessions historyLimit)
    · exact fun _ _ now c hc h => redisTracks_next hlimit hsha now c hc.1 h
    · exact fun _ _ now c hc h => redis_answer hlimit now c hc.1 hc.2 h
    · exact fun c hc => hvalid c.2 (List.mem_map_of_mem hc)
    · exact ⟨rfl, fun _ _ => (List.rtake_nil ..).symm⟩
  · intro now c t limit hc ht hne
    constructor
    · rintro store rfl
      exact FileMemoryStore.getHistory_next_ne hlimit now hne limit
    · rintro store rfl
      exact redis_getHistory_next_ne hlimit hsha now hc ht hne limit

/-- The digests of two session ids. -/
def sampleSha256 (text : Str) : Str :=
  if text = "a".toList then
    "ca978112ca1bbdcafac231b39a23dc4da786eff8147c4e72b9807785afee48bb".toList
  else if text = "b".toList then
    "3e23e8160039594a33894f6564e1b1348bbd7a0088d42c4acb73eeaed59c009d".toList
  else []

/-- Two exchanges with one session and one with another, read with limits that split an exchange. -/
def sampleCalls : List Call :=
  [.appendExchange ['a'] ['1'] ['2'], .appendExchange ['b'] ['3'] ['4'],
    .appendExchange ['a'] ['5'] ['6'], .getHistory ['a'] none, .getHistory ['a'] (some 1),
    .clearSession ['a'], .getHistory ['b'] (some 7), .getHistory ['a'] none]

/-- The answers of both stores that keep three messages. -/
theorem stores_equal_sample :
    let calls := sampleCalls.map fun c => ((['0'], ['0']), c)
    answers FileMemoryStore.next ⟨3, none⟩ calls
        = answers (RedisMemoryStore.next sampleSha256) ⟨[], 3, "polymind:memory".toList⟩ calls ∧
      answers FileMemoryStore.next ⟨3, none⟩ calls = [none, none, none,
        some (.ok [(assistant, ['2']), (user, ['5']), (assistant, ['6'])]),
        some (.ok [(assistant, ['6'])]), none, some (.ok [(user, ['3']), (assistant, ['4'])]),
        some (.ok [])] := by
  have hsha : Set.InjOn sampleSha256 ({['a'], ['b']} : Set Str) := by
    rintro s (rfl | rfl) t (rfl | rfl) h
    · rfl
    · exact absurd h (by decide)
    · exact absurd h (by decide)
    · rfl
  have hvalid : ∀ c ∈ sampleCalls,
      c.sessionId ∈ ({['a'], ['b']} : Set Str) ∧ c.limitValid := by
    simp [sampleCalls, Call.sessionId, Call.limitValid]
  intro calls
  have hcalls : calls.map Prod.snd = sampleCalls := rfl
  obtain ⟨hfile, hredis, -⟩ := stores_equal sampleSha256 "polymind:memory".toList
    (show (1 : Int) ≤ 3 by decide) hsha (rfl : calls.map Prod.snd = calls.map Prod.snd)
    (hcalls ▸ hvalid)
  exact ⟨hfile.trans hredis.symm, hfile.trans rfl⟩

end Polymind.Memory
