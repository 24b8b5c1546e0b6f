import Polymind.Lib.Json
import Mathlib.Data.List.TakeWhile
import Mathlib.Data.List.Count

/-!
# Texts and offsets

The string operations of Python that offsets and line numbers are made of: slices, `rfind`,
`rstrip`, `strip`, and `bisect_left` on the positions of the line breaks.

* `bisectLeft_newlines`: looking an offset up among the positions of the line breaks counts the
  line breaks before it;
* `slice_append`: adjacent slices join;
* `rfind_some`: where `rfind` finds a character.
-/

namespace Polymind

namespace Text

/-- `s[a:b]`. -/
def slice (s : Str) (a b : Nat) : Str := (s.take b).drop a

/-- `s.rstrip('\n')`. -/
def rstripNewlines (s : Str) : Str := (s.reverse.dropWhile (· = '\n')).reverse

/-- `s.rfind(c, a, b)`, `none` for `-1`. -/
def rfind (c : Char) (s : Str) (a b : Nat) : Option Nat :=
  ((List.range b).filter fun i => decide (a ≤ i) && s[i]? == some c).getLast?

/-- `str.isspace` on one character. -/
def isSpace (c : Char) : Bool :=
  let n := c.toNat
  (9 ≤ n && n ≤ 13) || (28 ≤ n && n ≤ 32) || n == 133 || n == 160 || n == 5760
    || (8192 ≤ n && n ≤ 8202) || n == 8232 || n == 8233 || n == 8239 || n == 8287 || n == 12288

/-- `s.strip()`. -/
def strip (s : Str) : Str := ((s.dropWhile isSpace).reverse.dropWhile isSpace).reverse

/-- `bool(s.strip())`. -/
def hasText (s : Str) : Bool := s.any fun c => !isSpace c

/-- `[i for i, char in enumerate(s) if char == '\n']`. -/
def newlines (s : Str) : List Nat := (List.range s.length).filter fun i => s[i]? == some '\n'

/-- `bisect_left` on a sorted list. -/
def bisectLeft (l : List Nat) (x : Nat) : Nat := (l.takeWhile (· < x)).length

/-! ### Slices -/

theorem length_slice (s : Str) (a b : Nat) : (slice s a b).length = min b s.length - a := by
  simp [slice]

theorem length_slice_of_le {s : Str} {a b : Nat} (hb : b ≤ s.length) :
    (slice s a b).length = b - a := by
  rw [length_slice, Nat.min_eq_left hb]

/-- Adjacent slices join. -/
theorem slice_append (s : Str) {a b c : Nat} (hab : a ≤ b) (hbc : b ≤ c) :
    slice s a b ++ slice s b c = slice s a c := by
  unfold slice
  have hsplit : s.take c = s.take b ++ (s.take c).drop b := by
    conv_lhs => rw [← List.take_append_drop b (s.take c)]
    rw [List.take_take, Nat.min_eq_left hbc]
  conv_rhs => rw [hsplit]
  rcases Nat.lt_or_ge s.length a with hlt | hge
  · rw [List.drop_eq_nil_of_le (by simp; omega), List.drop_eq_nil_of_le (by simp; omega),
      List.drop_eq_nil_of_le (by simp; omega)]
    rfl
  · have ha : a ≤ (s.take b).length := by
      rw [List.length_take]
      omega
    rw [List.drop_append_of_le_length ha]

theorem take_append_slice (s : Str) {a b : Nat} (hab : a ≤ b) : s.take a ++ slice s a b = s.take b := by
  have := slice_append s (Nat.zero_le a) hab
  simpa [slice] using this

/-- A slice of a slice, at offsets of the whole text. -/
theorem slice_slice (s : Str) {a b i j : Nat} (hab : a ≤ b) (hj : j ≤ b - a) :
    slice (slice s a b) i j = slice s (i + a) (j + a) := by
  unfold slice
  rw [List.take_drop, List.take_take, List.drop_drop, Nat.min_eq_left (by omega), Nat.add_comm a j,
    Nat.add_comm a i]

/-! ### Line breaks -/

theorem rfind_some {c : Char} {s : Str} {a b i : Nat} (h : rfind c s a b = some i) :
    a ≤ i ∧ i < b := by
  unfold rfind at h
  have hmem := List.mem_of_getLast? h
  simp only [List.mem_filter, List.mem_range, Bool.and_eq_true, decide_eq_true_eq] at hmem
  exact ⟨hmem.2.1, hmem.1⟩

/-- The positions of the line breaks before `n` are as many as the line breaks before `n`. -/
theorem length_filter_newlines (s : Str) (n : Nat) (hn : n ≤ s.length) :
    ((List.range n).filter fun i => s[i]? == some '\n').length = (s.take n).count '\n' := by
  induction n with
  | zero => simp
  | succ n ih =>
    have hlt : n < s.length := hn
    rw [List.range_succ, List.filter_append, List.length_append, ih (by omega),
      List.take_add_one, List.count_append, List.getElem?_eq_getElem hlt]
    have hget : s[n]? = some s[n] := List.getElem?_eq_getElem hlt
    by_cases hc : s[n] = '\n'
    · simp [hget, hc]
    · simp [hget, hc]

theorem takeWhile_range_filter (p : Nat → Bool) (m x : Nat) :
    ((List.range m).filter p).takeWhile (· < x) = (List.range (min m x)).filter p := by
  have hbelow : ∀ l : List Nat, (∀ i ∈ l, i < x) → l.takeWhile (fun i => decide (i < x)) = l := by
    intro l hl
    rw [List.takeWhile_eq_self_iff]
    intro i hi
    simpa using hl i hi
  have habove : ∀ l : List Nat, (∀ i ∈ l, x ≤ i) → l.takeWhile (fun i => decide (i < x)) = [] := by
    intro l hl
    cases l with
    | nil => rfl
    | cons i l =>
      have hi : x ≤ i := hl i (List.mem_cons_self ..)
      rw [List.takeWhile_cons_of_neg]
      simp only [decide_eq_true_eq]
      omega
  rcases Nat.le_total m x with hle | hle
  · rw [Nat.min_eq_left hle]
    refine hbelow _ fun i hi => ?_
    rw [List.mem_filter, List.mem_range] at hi
    omega
  · -- the positions split at `x`
    obtain ⟨k, rfl⟩ := Nat.exists_eq_add_of_le hle
    rw [Nat.min_eq_right hle, List.range_add, List.filter_append, List.takeWhile_append_of_pos, habove,
      List.append_nil]
    · intro i hi
      rw [List.mem_filter, List.mem_map] at hi
      obtain ⟨⟨j, -, rfl⟩, -⟩ := hi
      omega
    · intro i hi
      rw [List.mem_filter, List.mem_range] at hi
      simpa using hi.1

/-- Looking an offset up among the line breaks counts the line breaks before it. -/
theorem bisectLeft_newlines {s : Str} {n : Nat} (hn : n ≤ s.length) :
    bisectLeft (newlines s) n = (s.take n).count '\n' := by
  unfold bisectLeft newlines
  rw [takeWhile_range_filter, Nat.min_eq_right hn, length_filter_newlines s n hn]

end Text

end Polymind
