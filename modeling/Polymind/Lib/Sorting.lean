import Polymind.Lib.Json

/-!
# Stable sorting by a key

Rows that are produced in groups and sorted by a key that tells the groups apart come out the same
in whatever order the groups were produced (`insertionSort_flatMap_perm`,
`sortByText_perm`): the stable sort keeps the
order inside a group, and the key decides everything else.

Texts are ordered by their characters (`keyLe`), in SQLite by their bytes (`binaryLe`), which is the same
for ASCII texts (`binaryLe_eq_keyLe`).
-/

namespace Polymind

open Json

universe u v w

variable {α : Type u} {κ : Type v} {γ : Type w} {le : κ → κ → Prop} [DecidableRel le] {key : α → κ}

/-- Elements with different keys are inserted in either order. -/
theorem orderedInsert_comm (htotal : ∀ i j, le i j ∨ le j i) (htrans : ∀ i j k, le i j → le j k → le i k)
    (hanti : ∀ i j, le i j → le j i → i = j) {x y : α} (hne : key x ≠ key y) (l : List α) :
    (l.orderedInsert (fun a b => le (key a) (key b)) y).orderedInsert
        (fun a b => le (key a) (key b)) x
      = (l.orderedInsert (fun a b => le (key a) (key b)) x).orderedInsert
        (fun a b => le (key a) (key b)) y := by
  induction l with
  | nil =>
    simp only [List.orderedInsert_nil, List.orderedInsert_cons]
    by_cases hxy : le (key x) (key y)
    · have hyx : ¬le (key y) (key x) := fun hyx => hne (hanti _ _ hxy hyx)
      rw [if_pos hxy, if_neg hyx]
    · have hyx : le (key y) (key x) := (htotal _ _).resolve_left hxy
      rw [if_neg hxy, if_pos hyx]
  | cons b l ih =>
    simp only [List.orderedInsert_cons]
    by_cases hx : le (key x) (key b) <;> by_cases hy : le (key y) (key b)
    · -- both stand before `b`, in the order of their keys
      rw [if_pos hx, if_pos hy]
      simp only [List.orderedInsert_cons]
      by_cases hxy : le (key x) (key y)
      · have hyx : ¬le (key y) (key x) := fun hyx => hne (hanti _ _ hxy hyx)
        rw [if_pos hxy, if_neg hyx, if_pos hy]
      · have hyx : le (key y) (key x) := (htotal _ _).resolve_left hxy
        rw [if_neg hxy, if_pos hyx, if_pos hx]
    · -- `b` stands between them
      have hyx : ¬le (key y) (key x) := fun hyx => hy (htrans _ _ _ hyx hx)
      rw [if_pos hx, if_neg hy]
      simp only [List.orderedInsert_cons]
      rw [if_pos hx, if_neg hyx, if_neg hy]
    · have hxy : ¬le (key x) (key y) := fun hxy => hx (htrans _ _ _ hxy hy)
      rw [if_neg hx, if_pos hy]
      simp only [List.orderedInsert_cons]
      rw [if_neg hxy, if_neg hx, if_pos hy]
    · rw [if_neg hx, if_neg hy]
      simp only [List.orderedInsert_cons]
      rw [if_neg hx, if_neg hy, ih]

theorem insertionSort_append (r : α → α → Prop) [DecidableRel r] (l m : List α) :
    (l ++ m).insertionSort r = l.foldr (List.orderedInsert r) (m.insertionSort r) := by
  induction l with
  | nil => rfl
  | cons a l ih => rw [List.cons_append, List.insertionSort_cons, ih, List.foldr_cons]

/-- One element is inserted before or after a group with other keys. -/
theorem orderedInsert_foldr_comm (htotal : ∀ i j, le i j ∨ le j i)
    (htrans : ∀ i j k, le i j → le j k → le i k) (hanti : ∀ i j, le i j → le j i → i = j) {x : α}
    {group : List α} (hne : ∀ y ∈ group, key x ≠ key y) (l : List α) :
    (group.foldr (List.orderedInsert fun a b => le (key a) (key b)) l).orderedInsert
        (fun a b => le (key a) (key b)) x
      = group.foldr (List.orderedInsert fun a b => le (key a) (key b))
          (l.orderedInsert (fun a b => le (key a) (key b)) x) := by
  induction group with
  | nil => rfl
  | cons y group ih =>
    rw [List.foldr_cons, List.foldr_cons,
      orderedInsert_comm htotal htrans hanti (hne y (List.mem_cons_self ..)),
      ih fun z hz => hne z (List.mem_cons_of_mem _ hz)]

/-- Two groups without a common key are inserted in either order. -/
theorem foldr_orderedInsert_comm (htotal : ∀ i j, le i j ∨ le j i)
    (htrans : ∀ i j k, le i j → le j k → le i k) (hanti : ∀ i j, le i j → le j i → i = j)
    {group other : List α} (hne : ∀ x ∈ group, ∀ y ∈ other, key x ≠ key y) (l : List α) :
    group.foldr (List.orderedInsert fun a b => le (key a) (key b))
        (other.foldr (List.orderedInsert fun a b => le (key a) (key b)) l)
      = other.foldr (List.orderedInsert fun a b => le (key a) (key b))
        (group.foldr (List.orderedInsert fun a b => le (key a) (key b)) l) := by
  induction group with
  | nil => rfl
  | cons x group ih =>
    rw [List.foldr_cons, List.foldr_cons, ih fun z hz => hne z (List.mem_cons_of_mem _ hz),
      orderedInsert_foldr_comm htotal htrans hanti (hne x (List.mem_cons_self ..))]

/-- The order of groups without common keys does not matter. -/
theorem insertionSort_flatMap_perm (htotal : ∀ i j, le i j ∨ le j i)
    (htrans : ∀ i j k, le i j → le j k → le i k) (hanti : ∀ i j, le i j → le j i → i = j)
    {rows : γ → List α} {groups others : List γ} (hperm : groups.Perm others)
    (hne : groups.Pairwise fun g h => ∀ x ∈ rows g, ∀ y ∈ rows h, key x ≠ key y) :
    (groups.flatMap rows).insertionSort (fun a b => le (key a) (key b))
      = (others.flatMap rows).insertionSort fun a b => le (key a) (key b) := by
  induction hperm with
  | nil => rfl
  | cons g _ ih =>
    rw [List.flatMap_cons, List.flatMap_cons, insertionSort_append, insertionSort_append,
      ih (List.pairwise_cons.mp hne).2]
  | swap g h l =>
    obtain ⟨hfirst, -⟩ := List.pairwise_cons.mp hne
    simp only [List.flatMap_cons, insertionSort_append]
    exact foldr_orderedInsert_comm htotal htrans hanti (hfirst g (List.mem_cons_self ..)) _
  | trans hfirst _ ih₁ ih₂ =>
    have hsymm : ∀ {g h : γ}, (∀ x ∈ rows g, ∀ y ∈ rows h, key x ≠ key y) →
        ∀ x ∈ rows h, ∀ y ∈ rows g, key x ≠ key y := fun h x hx y hy heq => h y hy x hx heq.symm
    rw [ih₁ hne, ih₂ ((hfirst.pairwise_iff hsymm).mp hne)]

/-- Relations that agree on the elements sort them alike. -/
theorem insertionSort_congr {r r' : α → α → Prop} [DecidableRel r] [DecidableRel r'] {l : List α}
    (h : ∀ a ∈ l, ∀ b ∈ l, r a b ↔ r' a b) : l.insertionSort r = l.insertionSort r' := by
  have hinsert : ∀ (x : α) (l : List α), (∀ b ∈ l, r x b ↔ r' x b) →
      l.orderedInsert r x = l.orderedInsert r' x := by
    intro x l
    induction l with
    | nil => intro _; rfl
    | cons b l ih =>
      intro hl
      rw [List.orderedInsert_cons, List.orderedInsert_cons,
        ih fun c hc => hl c (List.mem_cons_of_mem _ hc)]
      simp only [hl b (List.mem_cons_self ..)]
  induction l with
  | nil => rfl
  | cons a l ih =>
    rw [List.insertionSort_cons, List.insertionSort_cons,
      ih fun b hb c hc => h b (List.mem_cons_of_mem _ hb) c (List.mem_cons_of_mem _ hc)]
    apply hinsert
    intro b hb
    rw [List.mem_insertionSort] at hb
    exact h a (List.mem_cons_self ..) b (List.mem_cons_of_mem _ hb)

/-! ### The order of texts -/

theorem keyLe_total (s t : Str) : keyLe s t = true ∨ keyLe t s = true := by
  induction s generalizing t with
  | nil => exact Or.inl rfl
  | cons a s ih =>
    cases t with
    | nil => exact Or.inr rfl
    | cons b t =>
      simp only [keyLe]
      by_cases hlt : a.toNat < b.toNat
      · rw [if_pos hlt]
        exact Or.inl rfl
      · by_cases hgt : b.toNat < a.toNat
        · rw [if_neg hlt, if_pos hgt, if_pos hgt]
          exact Or.inr rfl
        · rw [if_neg hlt, if_neg hgt, if_neg hgt, if_neg hlt]
          exact ih t

/-- A first character that is smaller decides. -/
theorem keyLe_cons {a b : Char} {s t : Str} :
    keyLe (a :: s) (b :: t) = true ↔ a.toNat < b.toNat ∨ a = b ∧ keyLe s t = true := by
  rw [keyLe]
  split_ifs with hlt hgt
  · exact ⟨fun _ => Or.inl hlt, fun _ => rfl⟩
  · constructor
    · nofun
    · rintro (h | ⟨rfl, -⟩)
      · omega
      · omega
  · have heq : a = b := Char.toNat_inj.mp (by omega)
    constructor
    · intro h
      exact Or.inr ⟨heq, h⟩
    · rintro (h | ⟨-, h⟩)
      · omega
      · exact h

theorem keyLe_antisymm {s t : Str} (hst : keyLe s t = true) (hts : keyLe t s = true) : s = t := by
  induction s generalizing t with
  | nil =>
    cases t with
    | nil => rfl
    | cons b t => cases hts
  | cons a s ih =>
    cases t with
    | nil => cases hst
    | cons b t =>
      rw [keyLe_cons] at hst hts
      rcases hst with hst | ⟨rfl, hst⟩
      · rcases hts with hts | ⟨rfl, -⟩
        · omega
        · omega
      · rcases hts with hts | ⟨-, hts⟩
        · omega
        · rw [ih hst hts]

theorem keyLe_trans {s t u : Str} (hst : keyLe s t = true) (htu : keyLe t u = true) :
    keyLe s u = true := by
  induction s generalizing t u with
  | nil => rfl
  | cons a s ih =>
    cases t with
    | nil => cases hst
    | cons b t =>
      cases u with
      | nil => cases htu
      | cons c u =>
        rw [keyLe_cons] at hst htu ⊢
        rcases hst with hst | ⟨rfl, hst⟩
        · rcases htu with htu | ⟨rfl, -⟩
          · exact Or.inl (hst.trans htu)
          · exact Or.inl hst
        · rcases htu with htu | ⟨rfl, htu⟩
          · exact Or.inl htu
          · exact Or.inr ⟨rfl, ih hst htu⟩

theorem keyLe_refl (s : Str) : keyLe s s = true := by
  rcases keyLe_total s s with h | h
  · exact h
  · exact h

theorem keyLe_append_left (x s t : Str) : keyLe (x ++ s) (x ++ t) = keyLe s t := by
  induction x with
  | nil => rfl
  | cons c x ih =>
    rw [List.cons_append, List.cons_append, keyLe, if_neg (lt_irrefl _), if_neg (lt_irrefl _), ih]

theorem keyLe_cons_self (c : Char) (s t : Str) : keyLe (c :: s) (c :: t) = keyLe s t :=
  keyLe_append_left [c] s t

/-- `memcmp` of two texts' bytes, the shorter first. -/
def bytesLe : List UInt8 → List UInt8 → Bool
  | [], _ => true
  | _ :: _, [] => false
  | a :: s, b :: t => if a < b then true else if b < a then false else bytesLe s t

/-- The `BINARY` collation of SQLite: the order of the UTF-8 bytes. -/
def binaryLe (s t : Str) : Bool :=
  bytesLe (s.flatMap String.utf8EncodeChar) (t.flatMap String.utf8EncodeChar)

/-- An ASCII character is its own byte. -/
theorem utf8EncodeChar_ascii {c : Char} (h : c.toNat < 128) :
    String.utf8EncodeChar c = [c.toUInt8] := by
  rw [String.utf8EncodeChar, if_pos]
  · rfl
  · show c.toNat ≤ 127
    omega

/-- ASCII texts are in the order of their characters. -/
theorem binaryLe_eq_keyLe {s t : Str} (hs : ∀ c ∈ s, c.toNat < 128) (ht : ∀ c ∈ t, c.toNat < 128) :
    binaryLe s t = keyLe s t := by
  unfold binaryLe
  induction s generalizing t with
  | nil => rfl
  | cons a s ih =>
    have ha := hs a (List.mem_cons_self ..)
    cases t with
    | nil =>
      rw [List.flatMap_cons, utf8EncodeChar_ascii ha]
      rfl
    | cons b t =>
      have hb := ht b (List.mem_cons_self ..)
      have hbyte : ∀ {c : Char}, c.toNat < 128 → c.toUInt8.toNat = c.toNat := by
        intro c hc
        show c.toNat % 256 = c.toNat
        omega
      rw [List.flatMap_cons, List.flatMap_cons, utf8EncodeChar_ascii ha, utf8EncodeChar_ascii hb]
      rw [List.singleton_append, List.singleton_append, bytesLe, keyLe,
        ih (fun c hc => hs c (List.mem_cons_of_mem _ hc)) fun c hc => ht c (List.mem_cons_of_mem _ hc)]
      simp only [UInt8.lt_iff_toNat_lt, hbyte ha, hbyte hb]
/-- Rows in groups, sorted by a text. -/
theorem sortByText_perm (key : α → Str) {rows : γ → List α} {groups others : List γ}
    (hperm : groups.Perm others)
    (hne : groups.Pairwise fun g h => ∀ x ∈ rows g, ∀ y ∈ rows h, key x ≠ key y) :
    (groups.flatMap rows).insertionSort (fun a b => keyLe (key a) (key b) = true)
      = (others.flatMap rows).insertionSort fun a b => keyLe (key a) (key b) = true :=
  @insertionSort_flatMap_perm _ _ _ (fun s t => keyLe s t = true) _ key keyLe_total
    (fun _ _ _ => keyLe_trans) (fun _ _ => keyLe_antisymm) _ _ _ hperm hne

end Polymind
