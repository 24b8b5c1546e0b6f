import Mathlib.Logic.Relation
import Mathlib.Data.List.Forall2

/-!
# Processes that share a state

A `Process` calls operations, goes on with their answers, and returns or raises in the end.  What an
operation may answer, and what it does to the shared state, is a relation `answers`, so that an
operation may fail before or after it has taken effect.  `PoolStep` interleaves any number of
processes, which may be started and abandoned at any time, with an environment.

The reasoning is rely and guarantee with one relation `R` for both: `Safe I R Q p s` says that `p`,
started in `s`, keeps the invariant `I` and respects `R` at each of its calls, whatever happens in
between that does the same, and ends with `Q`.

`Ensures I R φ p s` is the special case in which `p` ends in a later state, with `φ` if it returns.

* `Safe.bind`, `Safe.handle`: the rules of composition;
* `Ensures.bind`, `Ensures.handle`, `Ensures.forEach`, `Ensures.mapEach`: those with what later states keep;
* `pool_safe`: in every state a pool reaches the invariant holds and its processes are safe;
* `Returns`, with the rules of its own: what a process does when it runs alone and nothing is missing;
* `Returns.runs`: a pool can run such a process to its end.
-/

namespace Polymind

universe u v w

/-- A program over the operations `E`. -/
inductive Process (E : Type u) (Ans : E → Type u) (ε : Type u) (α : Type u) : Type u
  | done (result : Except ε α)
  | call (operation : E) (next : Except ε (Ans operation) → Process E Ans ε α)

namespace Process

variable {E : Type u} {Ans : E → Type u} {ε α β γ : Type u}

/-- Call one operation. -/
def perform (operation : E) : Process E Ans ε (Ans operation) := .call operation .done

def bind : Process E Ans ε α → (α → Process E Ans ε β) → Process E Ans ε β
  | .done (.ok a), f => f a
  | .done (.error e), _ => .done (.error e)
  | .call operation next, f => .call operation fun r => (next r).bind f

/-- `try: ... except: ...`. -/
def handle : Process E Ans ε α → (ε → Process E Ans ε α) → Process E Ans ε α
  | .done (.ok a), _ => .done (.ok a)
  | .done (.error e), f => f e
  | .call operation next, f => .call operation fun r => (next r).handle f

instance instMonadProcess : Monad (Process E Ans ε) where
  pure a := .done (.ok a)
  bind := bind

instance instMonadExceptProcess : MonadExcept ε (Process E Ans ε) where
  throw e := .done (.error e)
  tryCatch := handle

/-- `for a in l: ...`. -/
def forEach (f : α → Process E Ans ε PUnit) : List α → Process E Ans ε PUnit
  | [] => pure ⟨⟩
  | a :: l => do
    f a
    forEach f l

/-- `[f(a) for a in l]`. -/
def mapEach (f : α → Process E Ans ε β) : List α → Process E Ans ε (List β)
  | [] => pure []
  | a :: l => do
    let b ← f a
    let bs ← mapEach f l
    return b :: bs

/-! ### Safety -/

variable {S : Type v} (answers : (o : E) → S → Except ε (Ans o) → S → Prop) (I : S → Prop)
  (R : S → S → Prop)

/-- At each of its calls the process keeps `I` and respects `R`, and it ends with `Q`. -/
def Safe (Q : Except ε α → S → Prop) : Process E Ans ε α → S → Prop
  | .done r, s => Q r s
  | .call operation next, s => ∀ s' r s'', R s s' → I s' → answers operation s' r s'' →
    I s'' ∧ R s' s'' ∧ Safe Q (next r) s''

variable {answers I R} {P Q : Except ε α → S → Prop} {s t : S}

/-- The processes of others may come first. -/
theorem Safe.later (htrans : ∀ a b c, R a b → R b c → R a c)
    (hQ : ∀ r s t, R s t → Q r s → Q r t) {p : Process E Ans ε α} (h : Safe answers I R Q p s)
    (hst : R s t) : Safe answers I R Q p t := by
  cases p with
  | done r => exact hQ r s t hst h
  | call operation next => exact fun s' r s'' hs' => h s' r s'' (htrans _ _ _ hst hs')

theorem Safe.weaken (hPQ : ∀ r s, P r s → Q r s) {p : Process E Ans ε α}
    (h : Safe answers I R P p s) : Safe answers I R Q p s := by
  induction p generalizing s with
  | done r => exact hPQ r s h
  | call operation next ih =>
    intro s' r s'' hs' hI hr
    obtain ⟨hI, hR, hnext⟩ := h s' r s'' hs' hI hr
    exact ⟨hI, hR, ih r hnext⟩

theorem Safe.bind {Q : Except ε β → S → Prop} {p : Process E Ans ε α} {f : α → Process E Ans ε β}
    (h : Safe answers I R (fun r s => match r with
      | .ok a => Safe answers I R Q (f a) s
      | .error e => Q (.error e) s) p s) : Safe answers I R Q (p >>= f) s := by
  show Safe answers I R Q (p.bind f) s
  induction p generalizing s with
  | done r =>
    cases r with
    | ok a => exact h
    | error e => exact h
  | call operation next ih =>
    intro s' r s'' hs' hI hr
    obtain ⟨hI, hR, hnext⟩ := h s' r s'' hs' hI hr
    exact ⟨hI, hR, ih r hnext⟩

theorem Safe.handle {p : Process E Ans ε α} {f : ε → Process E Ans ε α}
    (h : Safe answers I R (fun r s => match r with
      | .ok a => Q (.ok a) s
      | .error e => Safe answers I R Q (f e) s) p s) : Safe answers I R Q (tryCatch p f) s := by
  show Safe answers I R Q (p.handle f) s
  induction p generalizing s with
  | done r =>
    cases r with
    | ok a => exact h
    | error e => exact h
  | call operation next ih =>
    intro s' r s'' hs' hI hr
    obtain ⟨hI, hR, hnext⟩ := h s' r s'' hs' hI hr
    exact ⟨hI, hR, ih r hnext⟩

/-! ### What a process ensures -/

variable (answers I R) in
/-- The process is safe, and ends in a later state where `I` holds, and `φ` if it returns. -/
def Ensures (φ : α → S → Prop) (p : Process E Ans ε α) (s : S) : Prop :=
  Safe answers I R (fun r s' => I s' ∧ R s s' ∧ ∀ a, r = .ok a → φ a s') p s

section Ensures

variable {φ : α → S → Prop} {ψ : β → S → Prop} {p : Process E Ans ε α}

theorem Ensures.weaken {φ' : α → S → Prop} (hφ : ∀ a s', I s' → R s s' → φ a s' → φ' a s')
    (h : Ensures answers I R φ p s) : Ensures answers I R φ' p s :=
  Safe.weaken (fun _ _ h => ⟨h.1, h.2.1, fun a ha => hφ a _ h.1 h.2.1 (h.2.2 a ha)⟩) h

variable (hrefl : ∀ s, R s s) (htrans : ∀ a b c, R a b → R b c → R a c)

include htrans in
/-- One call, by what it may answer. -/
theorem Ensures.perform {operation : E} {φ : Ans operation → S → Prop}
    (h : ∀ s' r s'', R s s' → I s' → answers operation s' r s'' →
      I s'' ∧ R s' s'' ∧ ∀ a, r = .ok a → φ a s'') :
    Ensures answers I R φ (perform operation) s := by
  intro s' r s'' hs hI hr
  obtain ⟨hI', hR, hφ⟩ := h s' r s'' hs hI hr
  exact ⟨hI', hR, hI', htrans _ _ _ hs hR, hφ⟩

include hrefl in
theorem Ensures.pure {a : α} (hs : I s) (h : φ a s) :
    Ensures answers I R φ (pure a : Process E Ans ε α) s :=
  ⟨hs, hrefl s, fun _ ha => Except.ok.inj ha ▸ h⟩

include hrefl in
theorem Ensures.throw {e : ε} (hs : I s) : Ensures answers I R φ (throw e : Process E Ans ε α) s :=
  ⟨hs, hrefl s, fun _ ha => by cases ha⟩

include htrans in
/-- What is ensured of a later state is ensured of this one. -/
theorem Ensures.earlier {t : S} (hst : R s t) (h : Ensures answers I R φ p t) :
    Safe answers I R (fun r s' => I s' ∧ R s s' ∧ ∀ a, r = .ok a → φ a s') p t :=
  Safe.weaken (fun _ _ h => ⟨h.1, htrans _ _ _ hst h.2.1, h.2.2⟩) h

include htrans in
theorem Ensures.bind {f : α → Process E Ans ε β} (hp : Ensures answers I R φ p s)
    (hf : ∀ a t, I t → R s t → φ a t → Ensures answers I R ψ (f a) t) :
    Ensures answers I R ψ (p >>= f) s := by
  refine Safe.bind (Safe.weaken ?_ hp)
  rintro (e | a) t ⟨hI, hR, ha⟩
  · exact ⟨hI, hR, fun _ h => by cases h⟩
  · exact (hf a t hI hR (ha a rfl)).earlier htrans hR

include htrans in
theorem Ensures.handle {f : ε → Process E Ans ε α} (hp : Ensures answers I R φ p s)
    (hf : ∀ e t, I t → R s t → Ensures answers I R φ (f e) t) :
    Ensures answers I R φ (tryCatch p f) s := by
  refine Safe.handle (Safe.weaken ?_ hp)
  rintro (e | a) t ⟨hI, hR, ha⟩
  · exact (hf e t hI hR).earlier htrans hR
  · exact ⟨hI, hR, ha⟩

include hrefl htrans in
/-- A loop whose rounds are safe in every later state. -/
theorem Ensures.forEach {f : α → Process E Ans ε PUnit} {l : List α} (hs : I s)
    (h : ∀ a ∈ l, ∀ t, I t → R s t → Ensures answers I R (fun _ _ => True) (f a) t) :
    Ensures answers I R (fun _ _ => True) (forEach f l) s := by
  induction l generalizing s with
  | nil => exact Ensures.pure hrefl hs trivial
  | cons a l ih =>
    refine Ensures.bind htrans (h a List.mem_cons_self s hs (hrefl s)) fun _ t hI hR _ => ?_
    exact ih hI fun b hb u hu htu => h b (List.mem_cons_of_mem _ hb) u hu (htrans _ _ _ hR htu)

include hrefl htrans in
theorem Ensures.mapEach {f : α → Process E Ans ε β} {l : List α} (hs : I s)
    (h : ∀ a ∈ l, ∀ t, I t → R s t → Ensures answers I R (fun _ _ => True) (f a) t) :
    Ensures answers I R (fun _ _ => True) (mapEach f l) s := by
  induction l generalizing s with
  | nil => exact Ensures.pure hrefl hs trivial
  | cons a l ih =>
    refine Ensures.bind htrans (h a List.mem_cons_self s hs (hrefl s)) fun b t hI hR _ => ?_
    refine Ensures.bind htrans (ih hI fun b hb u hu htu =>
      h b (List.mem_cons_of_mem _ hb) u hu (htrans _ _ _ hR htu)) fun bs u hI _ _ => ?_
    exact Ensures.pure hrefl hI trivial

end Ensures

/-! ### Pools -/

/-- One step of a pool: a process is started or abandoned, an operation answers, or the environment
does something. -/
inductive PoolStep (answers : (o : E) → S → Except ε (Ans o) → S → Prop)
    (starts : Process E Ans ε α → Prop) (environment : S → S → Prop) :
    S × List (Process E Ans ε α) → S × List (Process E Ans ε α) → Prop
  | started {s : S} {ps : List (Process E Ans ε α)} {p : Process E Ans ε α} (hp : starts p) :
    PoolStep answers starts environment (s, ps) (s, p :: ps)
  | abandoned {s : S} (before : List (Process E Ans ε α)) (p : Process E Ans ε α)
      (after : List (Process E Ans ε α)) :
    PoolStep answers starts environment (s, before ++ p :: after) (s, before ++ after)
  | answered {s s' : S} (before : List (Process E Ans ε α)) (operation : E)
      (next : Except ε (Ans operation) → Process E Ans ε α) (after : List (Process E Ans ε α))
      {r : Except ε (Ans operation)} (hr : answers operation s r s') :
    PoolStep answers starts environment (s, before ++ .call operation next :: after)
      (s', before ++ next r :: after)
  | outside {s s' : S} {ps : List (Process E Ans ε α)} (hs : environment s s') :
    PoolStep answers starts environment (s, ps) (s', ps)

/-- The invariant holds in every state that a pool reaches, and what its processes still have to do is
safe. -/
theorem pool_safe {starts : Process E Ans ε α → Prop} {environment : S → S → Prop}
    (hrefl : ∀ s, R s s) (htrans : ∀ a b c, R a b → R b c → R a c)
    (hQ : ∀ r s t, R s t → Q r s → Q r t)
    (hstarts : ∀ p, starts p → ∀ s, I s → Safe answers I R Q p s)
    (henvironment : ∀ s s', I s → environment s s' → I s' ∧ R s s')
    {s : S} (hs : I s) {x : S × List (Process E Ans ε α)}
    (h : Relation.ReflTransGen (PoolStep answers starts environment) (s, []) x) :
    I x.1 ∧ R s x.1 ∧ ∀ p ∈ x.2, Safe answers I R Q p x.1 := by
  induction h with
  | refl => exact ⟨hs, hrefl s, by simp⟩
  | tail _ hstep ih =>
    obtain ⟨hI, hR, hps⟩ := ih
    cases hstep with
    | started hp =>
      refine ⟨hI, hR, fun q hq => ?_⟩
      rcases List.mem_cons.mp hq with rfl | hq
      · exact hstarts q hp _ hI
      · exact hps q hq
    | abandoned before p after =>
      refine ⟨hI, hR, fun q hq => hps q ?_⟩
      rw [List.mem_append] at hq
      rw [List.mem_append, List.mem_cons]
      exact hq.elim .inl fun hq => .inr (.inr hq)
    | answered before operation next after hr =>
      have hcall := hps (.call operation next) (by simp)
      obtain ⟨hI', hstep, hnext⟩ := hcall _ _ _ (hrefl _) hI hr
      refine ⟨hI', htrans _ _ _ hR hstep, fun q hq => ?_⟩
      rw [List.mem_append, List.mem_cons] at hq
      rcases hq with hq | rfl | hq
      · exact (hps q (by simp [hq])).later htrans hQ hstep
      · exact hnext
      · exact (hps q (by simp [hq])).later htrans hQ hstep
    | outside hout =>
      obtain ⟨hI', hstep⟩ := henvironment _ _ hI hout
      exact ⟨hI', htrans _ _ _ hR hstep, fun q hq => (hps q hq).later htrans hQ hstep⟩

/-! ### Alone -/

section Returns

variable (answers) in
/-- Run alone, every call is answered, and whatever the answers are, the process returns with `φ`. -/
def Returns (φ : α → S → Prop) : Process E Ans ε α → S → Prop
  | .done (.ok a), s => φ a s
  | .done (.error _), _ => False
  | .call operation next, s => (∃ r s', answers operation s r s') ∧
    ∀ r s', answers operation s r s' → Returns φ (next r) s'

variable {φ : α → S → Prop} {ψ : β → S → Prop} {p : Process E Ans ε α}

theorem Returns.perform {operation : E} {φ : Ans operation → S → Prop}
    (hanswer : ∃ r s', answers operation s r s')
    (h : ∀ r s', answers operation s r s' → ∃ a, r = .ok a ∧ φ a s') :
    Returns answers φ (perform operation) s := by
  refine ⟨hanswer, fun r s' hr => ?_⟩
  obtain ⟨a, rfl, ha⟩ := h r s' hr
  exact ha

theorem Returns.weaken {φ' : α → S → Prop} (hφ : ∀ a s, φ a s → φ' a s) (hp : Returns answers φ p s) :
    Returns answers φ' p s := by
  induction p generalizing s with
  | done r =>
    cases r with
    | ok a => exact hφ a s hp
    | error e => exact hp.elim
  | call operation next ih => exact ⟨hp.1, fun r s' hr => ih r (hp.2 r s' hr)⟩

theorem Returns.bind {f : α → Process E Ans ε β} (hp : Returns answers φ p s)
    (hf : ∀ a t, φ a t → Returns answers ψ (f a) t) : Returns answers ψ (p >>= f) s := by
  show Returns answers ψ (p.bind f) s
  induction p generalizing s with
  | done r =>
    cases r with
    | ok a => exact hf a s hp
    | error e => exact hp.elim
  | call operation next ih => exact ⟨hp.1, fun r s' hr => ih r (hp.2 r s' hr)⟩

/-- A handler is not needed. -/
theorem Returns.handle {f : ε → Process E Ans ε α} (hp : Returns answers φ p s) :
    Returns answers φ (tryCatch p f) s := by
  show Returns answers φ (p.handle f) s
  induction p generalizing s with
  | done r =>
    cases r with
    | ok a => exact hp
    | error e => exact hp.elim
  | call operation next ih => exact ⟨hp.1, fun r s' hr => ih r (hp.2 r s' hr)⟩

/-- A loop, with what holds before each round. -/
theorem Returns.forEach {f : α → Process E Ans ε PUnit} {J : List α → S → Prop}
    (h : ∀ a l s, J (a :: l) s → Returns answers (fun _ s' => J l s') (f a) s) {l : List α} (hs : J l s) :
    Returns answers (fun _ s' => J [] s') (forEach f l) s := by
  induction l generalizing s with
  | nil => exact hs
  | cons a l ih => exact Returns.bind (h a l s hs) fun _ t ht => ih ht

/-- Rounds that change nothing. -/
theorem Returns.mapEach {f : α → Process E Ans ε β} {l : List α} (bs : List β)
    (h : List.Forall₂ (fun a b => Returns answers (fun b' s' => b' = b ∧ s' = s) (f a) s) l bs) :
    Returns answers (fun bs' s' => bs' = bs ∧ s' = s) (mapEach f l) s := by
  induction h with
  | nil => exact ⟨rfl, rfl⟩
  | cons hb _ ih =>
    refine Returns.bind hb fun b' t hb' => ?_
    obtain ⟨rfl, rfl⟩ := hb'
    refine Returns.bind ih fun bs' u hbs' => ?_
    obtain ⟨rfl, rfl⟩ := hbs'
    exact ⟨rfl, rfl⟩

theorem Returns.runs {answers' : (o : E) → S → Except ε (Ans o) → S → Prop}
    {starts : Process E Ans ε α → Prop} {environment : S → S → Prop}
    (hanswers : ∀ o s r s', answers o s r s' → answers' o s r s') (h : Returns answers φ p s)
    (ps : List (Process E Ans ε α)) :
    ∃ a s', φ a s' ∧ Relation.ReflTransGen (PoolStep answers' starts environment) (s, p :: ps)
      (s', .done (.ok a) :: ps) := by
  induction p generalizing s with
  | done r =>
    cases r with
    | ok a => exact ⟨a, s, h, .refl⟩
    | error e => exact h.elim
  | call operation next ih =>
    obtain ⟨⟨r, s', hr⟩, hnext⟩ := h
    obtain ⟨a, t, ha, hrun⟩ := ih r (hnext r s' hr)
    exact ⟨a, t, ha, .head (PoolStep.answered [] operation next ps (hanswers _ _ _ _ hr)) hrun⟩

end Returns

end Process

end Polymind
