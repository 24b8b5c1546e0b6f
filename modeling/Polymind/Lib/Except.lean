import Mathlib.Data.List.Forall2

/-!
# Computations that may raise

How a successful computation in `Except` is taken apart: `bind_eq_ok` and `map_eq_ok` for one step,
`foldlM_ok_induction` for a loop, whose invariant is proved one iteration at a time, and `mapM_eq_ok`
for a loop that collects its results; `bind_ne_error` and the lemmas after it say that a given error
is not raised, and `Raises P` that every error raised satisfies `P`.
-/

namespace Polymind

universe u v

variable {ε : Type u} {α β σ : Type v}

theorem ok_bind (a : α) (f : α → Except ε β) : (Except.ok a >>= f) = f a := rfl

theorem error_bind (e : ε) (f : α → Except ε β) : (Except.error e >>= f) = .error e := rfl

theorem bind_eq_ok {x : Except ε α} {f : α → Except ε β} {b : β} :
    (x >>= f) = .ok b ↔ ∃ a, x = .ok a ∧ f a = .ok b := by
  cases x with
  | error e => simp [bind, Except.bind]
  | ok a => simp [bind, Except.bind]

theorem map_eq_ok {x : Except ε α} {f : α → β} {b : β} :
    x.map f = .ok b ↔ ∃ a, x = .ok a ∧ f a = b := by
  cases x with
  | error e => simp [Except.map]
  | ok a => simp [Except.map]

theorem ite_error_eq_ok {c : Prop} [Decidable c] {e : ε} {x : Except ε α} {a : α} :
    (if c then .error e else x) = .ok a ↔ ¬c ∧ x = .ok a := by
  by_cases hc : c <;> simp [hc]

/-- The invariant rule of a loop that may raise: what holds before it and is kept by every
iteration that returns holds after it. -/
theorem foldlM_ok_induction {f : σ → α → Except ε σ} (P : σ → Prop) {l : List α} {s t : σ}
    (h : l.foldlM f s = .ok t) (h0 : P s)
    (hstep : ∀ a ∈ l, ∀ s t, P s → f s a = .ok t → P t) : P t := by
  induction l generalizing s with
  | nil =>
    simp only [List.foldlM_nil, pure, Except.pure, Except.ok.injEq] at h
    exact h ▸ h0
  | cons a l ih =>
    rw [List.foldlM_cons, bind_eq_ok] at h
    obtain ⟨u, hu, h⟩ := h
    exact ih h (hstep a (List.mem_cons_self ..) s u h0 hu)
      fun b hb => hstep b (List.mem_cons_of_mem _ hb)

/-- The invariant rule with the part of the list already visited. -/
theorem foldlM_ok_prefix {f : σ → α → Except ε σ} (P : List α → σ → Prop) {l : List α} {s t : σ}
    (h : l.foldlM f s = .ok t) (h0 : P [] s)
    (hstep : ∀ done a s t, (∃ rest, l = done ++ a :: rest) → P done s → f s a = .ok t →
      P (done ++ [a]) t) : P l t := by
  suffices hs : ∀ (done rest : List α) (s : σ), l = done ++ rest → rest.foldlM f s = .ok t →
      P done s → P l t from hs [] l s rfl h h0
  intro done rest
  induction rest generalizing done with
  | nil =>
    intro s hl h hP
    simp only [List.foldlM_nil, pure, Except.pure, Except.ok.injEq] at h
    rw [hl, List.append_nil, ← h]
    exact hP
  | cons a rest ih =>
    intro s hl h hP
    rw [List.foldlM_cons, bind_eq_ok] at h
    obtain ⟨u, hu, h⟩ := h
    exact ih (done ++ [a]) u (by simp [hl]) h (hstep done a s u ⟨rest, hl⟩ hP hu)

/-- Loops with the same steps are the same. -/
theorem foldlM_congr {f g : σ → α → Except ε σ} {l : List α} (h : ∀ a ∈ l, ∀ s, f s a = g s a)
    (s : σ) : l.foldlM f s = l.foldlM g s := by
  induction l generalizing s with
  | nil => rfl
  | cons a l ih =>
    rw [List.foldlM_cons, List.foldlM_cons, h a (List.mem_cons_self ..)]
    congr 1
    ext t
    rw [ih fun b hb => h b (List.mem_cons_of_mem _ hb)]

/-- A loop that collects results returns if every step does. -/
theorem mapM_eq_ok {f : α → Except ε β} {l : List α} {m : List β} :
    l.mapM f = .ok m ↔ List.Forall₂ (fun a b => f a = .ok b) l m := by
  induction l generalizing m with
  | nil =>
    rw [List.mapM_nil, List.forall₂_nil_left_iff]
    constructor
    · intro h
      exact (Except.ok.inj h).symm
    · rintro rfl
      rfl
  | cons a l ih =>
    rw [List.mapM_cons, bind_eq_ok]
    constructor
    · rintro ⟨b, hb, h⟩
      rw [bind_eq_ok] at h
      obtain ⟨m', hm', h⟩ := h
      rw [← Except.ok.inj h]
      exact .cons hb (ih.mp hm')
    · intro h
      cases h with
      | cons hb hm =>
        refine ⟨_, hb, ?_⟩
        rw [bind_eq_ok]
        exact ⟨_, ih.mpr hm, rfl⟩

/-- Two loops that collect their results are one, if the second never raises. -/
theorem mapM_bind_mapM {γ : Type v} {f : α → Except ε β} {g : β → Except ε γ}
    (hg : ∀ a b, f a = .ok b → ∃ c, g b = .ok c) (l : List α) :
    (l.mapM f >>= fun bs => bs.mapM g) = l.mapM fun a => f a >>= g := by
  induction l with
  | nil => rfl
  | cons a l ih =>
    rw [List.mapM_cons, List.mapM_cons, ← ih]
    cases hf : f a with
    | error e => rfl
    | ok b =>
      obtain ⟨c, hc⟩ := hg a b hf
      have hbind : (Except.ok b >>= g) = .ok c := hc
      rw [hbind]
      cases hl : l.mapM f with
      | error e => rfl
      | ok bs =>
        show (b :: bs).mapM g = (bs.mapM g >>= fun cs => pure (c :: cs))
        rw [List.mapM_cons, hc]
        rfl

/-- A check made of every item passes if it does for each. -/
theorem forM_eq_ok {f : α → Except ε PUnit} {l : List α} :
    l.forM f = .ok ⟨⟩ ↔ ∀ x ∈ l, f x = .ok ⟨⟩ := by
  induction l with
  | nil => simp [List.forM, pure, Except.pure]
  | cons x l ih =>
    rw [List.forM, bind_eq_ok, List.forall_mem_cons]
    constructor
    · rintro ⟨⟨⟩, hx, h⟩
      exact ⟨hx, ih.mp h⟩
    · rintro ⟨hx, h⟩
      exact ⟨⟨⟩, hx, ih.mpr h⟩

/-! ### What a loop collects -/

theorem map_eq_of_forall₂ {γ : Type v} {R : α → β → Prop} {f : α → γ} {g : β → γ} {l : List α}
    {m : List β} (h : List.Forall₂ R l m) (hR : ∀ a b, R a b → f a = g b) : l.map f = m.map g := by
  induction h with
  | nil => rfl
  | cons hab _ ih => rw [List.map_cons, List.map_cons, hR _ _ hab, ih]

theorem mem_of_forall₂ {R : α → β → Prop} {l : List α} {m : List β} (h : List.Forall₂ R l m) {b : β}
    (hb : b ∈ m) : ∃ a ∈ l, R a b := by
  induction h with
  | nil => cases hb
  | cons hab _ ih =>
    rcases List.mem_cons.mp hb with rfl | hb
    · exact ⟨_, List.mem_cons_self .., hab⟩
    · obtain ⟨a, ha, hr⟩ := ih hb
      exact ⟨a, List.mem_cons_of_mem _ ha, hr⟩

/-! ### Errors that are not raised -/

theorem bind_ne_error {x : Except ε α} {f : α → Except ε β} {e : ε} (hx : x ≠ .error e)
    (hf : ∀ a, x = .ok a → f a ≠ .error e) : (x >>= f) ≠ .error e := by
  cases x with
  | error e' => simpa [bind, Except.bind] using hx
  | ok a => exact hf a rfl

theorem map_ne_error {x : Except ε α} {f : α → β} {e : ε} (hx : x ≠ .error e) :
    x.map f ≠ .error e := by
  cases x with
  | error e' => simpa [Except.map] using hx
  | ok a => simp [Except.map]

theorem mapM_ne_error {f : α → Except ε β} {l : List α} {e : ε} (h : ∀ a ∈ l, f a ≠ .error e) :
    l.mapM f ≠ .error e := by
  induction l with
  | nil => simp [pure, Except.pure]
  | cons a l ih =>
    rw [List.mapM_cons]
    refine bind_ne_error (h a (List.mem_cons_self ..)) fun b _ => ?_
    exact bind_ne_error (ih fun a ha => h a (List.mem_cons_of_mem _ ha)) fun m _ => by
      simp [pure, Except.pure]

theorem forM_ne_error {f : α → Except ε PUnit} {l : List α} {e : ε} (h : ∀ a ∈ l, f a ≠ .error e) :
    l.forM f ≠ .error e := by
  induction l with
  | nil => simp [pure, Except.pure]
  | cons a l ih =>
    rw [List.forM]
    exact bind_ne_error (h a (List.mem_cons_self ..)) fun _ _ => ih fun b hb => h b (List.mem_cons_of_mem _ hb)

theorem foldlM_ne_error {f : σ → α → Except ε σ} {l : List α} {e : ε}
    (h : ∀ s, ∀ a ∈ l, f s a ≠ .error e) (s : σ) : l.foldlM f s ≠ .error e := by
  induction l generalizing s with
  | nil => simp [pure, Except.pure]
  | cons a l ih =>
    rw [List.foldlM_cons]
    refine bind_ne_error (h s a (List.mem_cons_self ..)) fun t _ => ?_
    exact ih (fun s b hb => h s b (List.mem_cons_of_mem _ hb)) t

/-! ### Errors that are raised -/

/-- Every error of the computation satisfies `P`. -/
def Raises (P : ε → Prop) (x : Except ε α) : Prop := ∀ e, x = .error e → P e

namespace Raises

variable {P : ε → Prop}

theorem ok (a : α) : Raises P (.ok a : Except ε α) := nofun

theorem error {e : ε} (h : P e) : Raises P (.error e : Except ε α) := by
  rintro _ ⟨rfl⟩
  exact h

theorem bind {x : Except ε α} {f : α → Except ε β} (hx : Raises P x)
    (hf : ∀ a, x = .ok a → Raises P (f a)) : Raises P (x >>= f) := by
  cases x with
  | error e => exact error (hx e rfl)
  | ok a => exact hf a rfl

theorem map {x : Except ε α} {f : α → β} (hx : Raises P x) : Raises P (x.map f) := by
  cases x with
  | error e => exact error (hx e rfl)
  | ok a => exact ok (f a)

theorem foldlM {f : σ → α → Except ε σ} {l : List α} (h : ∀ s, ∀ a ∈ l, Raises P (f s a)) (s : σ) :
    Raises P (l.foldlM f s) := by
  induction l generalizing s with
  | nil => exact ok s
  | cons a l ih =>
    rw [List.foldlM_cons]
    apply bind (h s a (List.mem_cons_self ..))
    intro t _
    exact ih (fun s b hb => h s b (List.mem_cons_of_mem _ hb)) t

end Raises

end Polymind
