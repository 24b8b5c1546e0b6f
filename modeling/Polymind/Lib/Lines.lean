import Polymind.Lib.Text

/-!
# The lines of a text

A line ends with its LF, but for the last one of a text that has none (`Lines`).  `terminated` puts
the LF back to the parts of `text.split('\n')`; without empty parts these are the lines of the text
(`lines_terminated`, `flatten_terminated`), and each stands where the LF before it are counted
(`Lines.lineAt`).
-/

namespace Polymind.Text

/-- Lines that follow each other: each ends with its only LF, the last one perhaps without it. -/
inductive Lines : List Str → Prop
  | nil : Lines []
  | last {line : Str} (nonempty : line ≠ []) (one : '\n' ∉ line) : Lines [line]
  | cons {line : Str} {lines : List Str} (one : '\n' ∉ line) (rest : Lines lines) :
      Lines ((line ++ ['\n']) :: lines)

/-- The line with the number `i`, from 0, stands between two offsets. -/
structure LineAt (text : Str) (i start stop : Nat) : Prop where
  /-- As many lines end before it. -/
  before : (text.take start).count '\n' = i
  starts : start = 0 ∨ text[start - 1]? = some '\n'
  nonempty : start < stop
  inside : stop ≤ text.length
  /-- No LF but at its end. -/
  one : '\n' ∉ slice text start (stop - 1)
  ends : text[stop - 1]? = some '\n' ∨ stop = text.length

/-! ### Splitting -/

/-- The parts, each but the last with its LF. -/
def terminated : List Str → List Str
  | [] => []
  | [part] => [part]
  | part :: next :: parts => (part ++ ['\n']) :: terminated (next :: parts)

theorem terminated_cons {part : Str} {parts : List Str} (h : parts ≠ []) :
    terminated (part :: parts) = (part ++ ['\n']) :: terminated parts := by
  cases parts with
  | nil => exact absurd rfl h
  | cons next parts => rfl

/-- No part holds what was split at. -/
theorem not_mem_splitOn {text part : Str} (h : part ∈ text.splitOn '\n') : '\n' ∉ part := by
  induction text generalizing part with
  | nil =>
    obtain rfl := List.mem_singleton.mp h
    exact List.not_mem_nil
  | cons c text ih =>
    rw [List.splitOn_cons_eq_if_modifyHead] at h
    split at h
    · rcases List.mem_cons.mp h with rfl | h
      · exact List.not_mem_nil
      · exact ih h
    · rename_i hc
      obtain ⟨first, rest, hsplit⟩ := List.exists_cons_of_ne_nil (List.splitOn_ne_nil '\n' text)
      rw [hsplit, List.modifyHead_cons] at h
      rcases List.mem_cons.mp h with rfl | h
      · rw [List.mem_cons, not_or]
        refine ⟨fun hlf => hc (by rw [← hlf, beq_self_eq_true]), ih ?_⟩
        rw [hsplit]
        exact List.mem_cons_self ..
      · apply ih
        rw [hsplit]
        exact List.mem_cons_of_mem _ h

theorem flatten_terminated (text : Str) : (terminated (text.splitOn '\n')).flatten = text := by
  have hjoin (parts : List Str) : (terminated parts).flatten = ['\n'].intercalate parts := by
    induction parts with
    | nil => rfl
    | cons part parts ih =>
      cases parts with
      | nil => rw [List.intercalate_singleton, terminated, List.flatten_singleton]
      | cons next parts =>
        rw [terminated, List.flatten_cons, ih, List.intercalate_cons_cons]
  rw [hjoin, List.intercalate_splitOn]

theorem lines_terminated {parts : List Str} (h : ∀ part ∈ parts, '\n' ∉ part) :
    Lines ((terminated parts).filter fun line => line ≠ []) := by
  induction parts with
  | nil => exact .nil
  | cons part parts ih =>
    rw [List.forall_mem_cons] at h
    cases parts with
    | nil =>
      by_cases hpart : part = []
      · subst hpart
        exact .nil
      · rw [terminated, List.filter_cons_of_pos (by simpa using hpart)]
        exact .last hpart h.1
    | cons next parts =>
      rw [terminated, List.filter_cons_of_pos (by simp)]
      exact .cons h.1 (ih h.2)

/-- `[part + ('\n' if i < len(parts) - 1 else '') for i, part in enumerate(parts)]`. -/
theorem map_zipIdx_terminated (parts : List Str) (n : Nat) :
    ((parts.zipIdx n).map fun p => p.1 ++ if p.2 < n + parts.length - 1 then ['\n'] else [])
      = terminated parts := by
  induction parts generalizing n with
  | nil => rfl
  | cons part parts ih =>
    rw [List.zipIdx_cons, List.map_cons, List.length_cons]
    cases parts with
    | nil =>
      rw [if_neg (by simp), List.append_nil]
      rfl
    | cons next parts =>
      have hrest := ih (n + 1)
      rw [show n + 1 + (next :: parts).length - 1 = n + ((next :: parts).length + 1) - 1 by omega] at hrest
      rw [hrest, if_pos (by simp), terminated]

/-! ### Counting -/

theorem count_line {line : Str} (h : '\n' ∉ line) : (line ++ ['\n']).count '\n' = 1 := by
  rw [List.count_append, List.count_eq_zero_of_not_mem h]
  rfl

theorem rstripNewlines_of_not_mem {line : Str} (h : '\n' ∉ line) : rstripNewlines line = line := by
  unfold rstripNewlines
  rw [List.dropWhile_eq_self_iff.mpr, List.reverse_reverse]
  intro hpos heq
  apply h
  rw [← List.mem_reverse]
  have hlf : line.reverse[0] = '\n' := by simpa using heq
  rw [← hlf]
  exact List.getElem_mem _

theorem rstripNewlines_line {line : Str} (h : '\n' ∉ line) : rstripNewlines (line ++ ['\n']) = line := by
  conv_rhs => rw [← rstripNewlines_of_not_mem h]
  unfold rstripNewlines
  rw [List.reverse_append, List.reverse_singleton, List.singleton_append,
    List.dropWhile_cons_of_pos (by simp)]

/-- Each line has no LF but at its end. -/
theorem Lines.rstrip {lines : List Str} (h : Lines lines) {line : Str} (hl : line ∈ lines) :
    (rstripNewlines line).count '\n' = 0 := by
  induction h with
  | nil => exact absurd hl List.not_mem_nil
  | last _ hone =>
    obtain rfl := List.mem_singleton.mp hl
    rw [rstripNewlines_of_not_mem hone, List.count_eq_zero_of_not_mem hone]
  | cons hone _ ih =>
    rcases List.mem_cons.mp hl with rfl | hl
    · rw [rstripNewlines_line hone, List.count_eq_zero_of_not_mem hone]
    · exact ih hl

/-- A line between a text that ends with a line and the rest. -/
theorem lineAt_of_parts {done line rest : Str} (hends : done = [] ∨ done.getLast? = some '\n')
    (hne : line ≠ []) (hone : '\n' ∉ line.dropLast) (hlast : line.getLast? = some '\n' ∨ rest = []) :
    LineAt (done ++ (line ++ rest)) (done.count '\n') done.length (done.length + line.length) := by
  have hpos : 0 < line.length := List.length_pos_of_ne_nil hne
  refine ⟨?_, ?_, by omega, ?_, ?_, ?_⟩
  · rw [List.take_left]
  · rcases hends with rfl | hlf
    · exact Or.inl rfl
    · rw [List.getLast?_eq_getElem?] at hlf
      have hlt : done.length - 1 < done.length := (List.getElem?_eq_some_iff.mp hlf).1
      rw [List.getElem?_append_left hlt]
      exact Or.inr hlf
  · rw [List.length_append, List.length_append]
    omega
  · have hslice : slice (done ++ (line ++ rest)) done.length (done.length + line.length - 1)
        = line.dropLast := by
      unfold slice
      rw [show done.length + line.length - 1 = done.length + (line.length - 1) by omega,
        List.take_length_add_append, List.drop_left, List.take_append_of_le_length (by omega),
        List.dropLast_eq_take]
    rw [hslice]
    exact hone
  · rw [show done.length + line.length - 1 = done.length + (line.length - 1) by omega,
      List.getElem?_append_right (by omega), Nat.add_sub_cancel_left,
      List.getElem?_append_left (by omega), ← List.getLast?_eq_getElem?]
    rcases hlast with hlf | rfl
    · exact Or.inl hlf
    · right
      rw [List.append_nil, List.length_append]

/-- The lines that follow a text that ends with a line. -/
theorem Lines.lineAt {lines : List Str} (h : Lines lines) {done : Str}
    (hends : done = [] ∨ done.getLast? = some '\n') {i : Nat} {line : Str} (hi : lines[i]? = some line) :
    LineAt (done ++ lines.flatten) (done.count '\n' + i) (done.length + (lines.take i).flatten.length)
      (done.length + (lines.take i).flatten.length + line.length) := by
  induction h generalizing done i with
  | nil => cases hi
  | @last only hne hone =>
    cases i with
    | zero =>
      obtain rfl := Option.some.inj hi
      have hpart : '\n' ∉ only.dropLast := fun hmem => hone (List.dropLast_subset _ hmem)
      exact lineAt_of_parts hends hne hpart (Or.inr rfl)
    | succ i => cases hi
  | @cons first lines hone _ ih =>
    cases i with
    | zero =>
      obtain rfl := Option.some.inj hi
      have hpart : '\n' ∉ (first ++ ['\n']).dropLast := by rwa [List.dropLast_concat]
      exact lineAt_of_parts hends (by simp) hpart (Or.inl (by simp))
    | succ i =>
      -- the first line is now behind
      have hnext := @ih (done ++ (first ++ ['\n'])) (Or.inr (by simp)) i hi
      rw [List.count_append, count_line hone, List.length_append, List.append_assoc] at hnext
      rw [List.take_succ_cons, List.flatten_cons, List.flatten_cons, List.length_append,
        ← Nat.add_assoc, ← Nat.add_assoc, Nat.add_right_comm _ i 1]
      exact hnext

end Polymind.Text
