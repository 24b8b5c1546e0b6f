import Polymind.Lib.Json
import Mathlib.Data.List.TakeWhile

/-!
# Canonical JSON texts can be told apart

A scanner that reads a text up to the delimiter that ends its first value passes over exactly the
text of that value (`passes_dumps`), so that the text of an array or an object determines the texts
of its members.

* `joinComma_injective`: values written one after the other are the same values;
* `canonical_obj_injective`: two objects with the same keys and one text have the same values;
* `canonical_str_injective`, `dumps_strs_injective`, `toDigits_injective`: two texts, two lists of
  texts, two numbers.

Floats are left out: nothing is assumed of the text `float.__repr__` gives.
-/

namespace Polymind.Json

/-! ### The scanner -/

/-- Where a scanner stands: in a value at some nesting depth, in a string, or after a backslash. -/
inductive Mode where
  | value (depth : Nat)
  | string (depth : Nat)
  | escape (depth : Nat)

/-- The text up to the delimiter that ends the value at depth 0. -/
def scan : Mode → Str → Str
  | _, [] => []
  | .string d, c :: s =>
    c :: scan (if c = '"' then .value d else if c = '\\' then .escape d else .string d) s
  | .escape d, c :: s => c :: scan (.string d) s
  | .value d, c :: s =>
    if c = '"' then c :: scan (.string d) s
    else if c = '[' ∨ c = '{' then c :: scan (.value (d + 1)) s
    else if c = ']' ∨ c = '}' then if d = 0 then [] else c :: scan (.value (d - 1)) s
    else if c = ',' ∧ d = 0 then []
    else c :: scan (.value d) s

/-- The scanner passes over `t` and then stands in mode `n`. -/
def Passes (m : Mode) (t : Str) (n : Mode) : Prop := ∀ s, scan m (t ++ s) = t ++ scan n s

theorem Passes.nil (m : Mode) : Passes m [] m := fun _ => rfl

theorem Passes.append {m n o : Mode} {t u : Str} (h : Passes m t n) (h' : Passes n u o) :
    Passes m (t ++ u) o := by
  intro s
  rw [List.append_assoc, h, h', List.append_assoc]

theorem Passes.cons {m n o : Mode} {c : Char} {t : Str} (h : Passes m [c] n) (h' : Passes n t o) :
    Passes m (c :: t) o :=
  h.append h'

/-- A text whose characters each leave the scanner where it is. -/
theorem passes_of_chars {m : Mode} {t : Str} (h : ∀ c ∈ t, Passes m [c] m) : Passes m t m := by
  induction t with
  | nil => exact .nil m
  | cons c t ih =>
    exact (h c (List.mem_cons_self ..)).cons (ih fun d hd => h d (List.mem_cons_of_mem _ hd))

theorem passes_string_char {d : Nat} {c : Char} (hq : c ≠ '"') (hb : c ≠ '\\') :
    Passes (.string d) [c] (.string d) := by
  intro s
  rw [List.cons_append, List.nil_append, scan, if_neg hq, if_neg hb]
  rfl

theorem passes_backslash (d : Nat) (c : Char) : Passes (.string d) ['\\', c] (.string d) :=
  fun _ => rfl

/-- The characters that mean nothing to the scanner inside a value. -/
theorem passes_value_char {d : Nat} {c : Char}
    (h : c ∉ ['"', '[', '{', ']', '}', ',']) : Passes (.value d) [c] (.value d) := by
  intro s
  simp only [List.mem_cons, List.not_mem_nil, or_false, not_or] at h
  obtain ⟨h1, h2, h3, h4, h5, h6⟩ := h
  rw [List.cons_append, List.nil_append, scan, if_neg h1, if_neg (by simp [h2, h3]),
    if_neg (by simp [h4, h5]), if_neg (by simp [h6])]
  rfl

/-! ### Strings -/

theorem hexDigit_plain (n : Nat) : hexDigit (n % 16) ≠ '"' ∧ hexDigit (n % 16) ≠ '\\' := by
  have hall : ∀ k < 16, hexDigit k ≠ '"' ∧ hexDigit k ≠ '\\' := by decide
  exact hall _ (Nat.mod_lt _ (by omega))

theorem passes_unicodeEscape (d n : Nat) : Passes (.string d) (unicodeEscape n) (.string d) := by
  refine (passes_backslash d 'u').append (passes_of_chars fun c hc => ?_)
  simp only [List.mem_cons, List.not_mem_nil, or_false] at hc
  rcases hc with rfl | rfl | rfl | rfl
  all_goals exact passes_string_char (hexDigit_plain _).1 (hexDigit_plain _).2

theorem passes_escapeChar (d : Nat) (c : Char) :
    Passes (.string d) (escapeChar true c) (.string d) := by
  unfold escapeChar
  split
  · exact passes_backslash d '"'
  rename_i hq
  split
  · exact passes_backslash d '\\'
  rename_i hb
  repeat' split
  · exact passes_backslash d 'n'
  · exact passes_backslash d 'r'
  · exact passes_backslash d 't'
  · exact passes_backslash d 'b'
  · exact passes_backslash d 'f'
  · exact passes_unicodeEscape d _
  · exact passes_string_char hq hb
  · exact passes_unicodeEscape d _
  · exact (passes_unicodeEscape d _).append (passes_unicodeEscape d _)

theorem passes_quote (d : Nat) (s : Str) : Passes (.value d) (quote true s) (.value d) := by
  have hbody : Passes (.string d) (s.flatMap (escapeChar true)) (.string d) := by
    induction s with
    | nil => exact .nil _
    | cons c s ih => exact (passes_escapeChar d c).append ih
  have hopen : Passes (.value d) ['"'] (.string d) := fun _ => rfl
  have hclose : Passes (.string d) ['"'] (.value d) := fun _ => rfl
  exact hopen.cons (hbody.append hclose)

/-! ### Values -/

mutual

/-- No float occurs in the value. -/
def floatFree : Json → Bool
  | .float _ => false
  | .arr items => floatFreeItems items
  | .obj fields => floatFreeFields fields
  | _ => true

def floatFreeItems : List Json → Bool
  | [] => true
  | item :: items => floatFree item && floatFreeItems items

def floatFreeFields : List (Str × Json) → Bool
  | [] => true
  | (_, value) :: fields => floatFree value && floatFreeFields fields

end

theorem passes_digits (d n : Nat) : Passes (.value d) (Nat.toDigits 10 n) (.value d) := by
  refine passes_of_chars fun c hc => passes_value_char ?_
  have hdigit := Nat.isDigit_of_mem_toDigits (by omega) (by omega) hc
  simp only [List.mem_cons, List.not_mem_nil, or_false]
  rintro (rfl | rfl | rfl | rfl | rfl | rfl) <;> exact absurd hdigit (by decide)

theorem passes_intText (d : Nat) (i : Int) : Passes (.value d) (intText i) (.value d) := by
  cases i with
  | ofNat n => exact passes_digits d n
  | negSucc n =>
    have hminus : Passes (.value d) ['-'] (.value d) := passes_value_char (by decide)
    exact hminus.cons (passes_digits d (n + 1))

/-- Inside brackets a comma does not end the value. -/
theorem passes_joinComma {d : Nat} {ts : List Str}
    (h : ∀ t ∈ ts, Passes (.value (d + 1)) t (.value (d + 1))) :
    Passes (.value (d + 1)) (joinComma ts) (.value (d + 1)) := by
  induction ts with
  | nil => exact .nil _
  | cons t ts ih =>
    have ht := h t (List.mem_cons_self ..)
    have hts := ih fun u hu => h u (List.mem_cons_of_mem _ hu)
    cases ts with
    | nil => exact ht
    | cons u us =>
      have hcomma : Passes (.value (d + 1)) [','] (.value (d + 1)) := fun _ => rfl
      exact ht.append (hcomma.cons hts)

theorem passes_fieldText {d : Nat} {f : Str × Str} (h : Passes (.value d) f.2 (.value d)) :
    Passes (.value d) (fieldText true f) (.value d) := by
  have hcolon : Passes (.value d) [':'] (.value d) := passes_value_char (by decide)
  exact (passes_quote d f.1).append (hcolon.cons h)

theorem passes_fields {d : Nat} {fields : List (Str × Str)}
    (h : ∀ f ∈ fields, Passes (.value (d + 1)) f.2 (.value (d + 1))) :
    Passes (.value (d + 1)) (joinComma ((sortFields fields).map (fieldText true)))
      (.value (d + 1)) := by
  refine passes_joinComma fun t ht => ?_
  obtain ⟨f, hf, rfl⟩ := List.mem_map.mp ht
  exact passes_fieldText (h f ((List.perm_insertionSort _ _).subset hf))

mutual

/-- The scanner passes over the text of a value. -/
theorem passes_dumps : ∀ (v : Json), floatFree v = true → ∀ d,
    Passes (.value d) (dumps true v) (.value d)
  | .null, _, d => passes_of_chars fun c hc => passes_value_char (by
      simp only [dumps, List.mem_cons, List.not_mem_nil, or_false] at hc
      rcases hc with rfl | rfl | rfl | rfl <;> decide)
  | .bool true, _, d => passes_of_chars fun c hc => passes_value_char (by
      simp only [dumps, List.mem_cons, List.not_mem_nil, or_false] at hc
      rcases hc with rfl | rfl | rfl | rfl <;> decide)
  | .bool false, _, d => passes_of_chars fun c hc => passes_value_char (by
      simp only [dumps, List.mem_cons, List.not_mem_nil, or_false] at hc
      rcases hc with rfl | rfl | rfl | rfl | rfl <;> decide)
  | .int i, _, d => passes_intText d i
  | .float _, h, _ => by simp [floatFree] at h
  | .str s, _, d => passes_quote d s
  | .arr items, h, d => by
    rw [floatFree] at h
    have hopen : Passes (.value d) ['['] (.value (d + 1)) := fun _ => rfl
    have hclose : Passes (.value (d + 1)) [']'] (.value d) := fun _ => rfl
    rw [dumps]
    exact hopen.cons ((passes_joinComma (passes_dumpsItems items h (d + 1))).append hclose)
  | .obj fields, h, d => by
    rw [floatFree] at h
    have hopen : Passes (.value d) ['{'] (.value (d + 1)) := fun _ => rfl
    have hclose : Passes (.value (d + 1)) ['}'] (.value d) := fun _ => rfl
    rw [dumps]
    exact hopen.cons ((passes_fields (passes_dumpsFields fields h (d + 1))).append hclose)

theorem passes_dumpsItems : ∀ (items : List Json), floatFreeItems items = true → ∀ d,
    ∀ t ∈ dumpsItems true items, Passes (.value d) t (.value d)
  | [], _, _, _, ht => by simp [dumpsItems] at ht
  | item :: items, h, d, t, ht => by
    rw [floatFreeItems, Bool.and_eq_true] at h
    rw [dumpsItems, List.mem_cons] at ht
    rcases ht with rfl | ht
    · exact passes_dumps item h.1 d
    · exact passes_dumpsItems items h.2 d t ht

theorem passes_dumpsFields : ∀ (fields : List (Str × Json)), floatFreeFields fields = true → ∀ d,
    ∀ f ∈ dumpsFields true fields, Passes (.value d) f.2 (.value d)
  | [], _, _, _, hf => by simp [dumpsFields] at hf
  | (key, value) :: fields, h, d, f, hf => by
    rw [floatFreeFields, Bool.and_eq_true] at h
    rw [dumpsFields, List.mem_cons] at hf
    rcases hf with rfl | hf
    · exact passes_dumps value h.1 d
    · exact passes_dumpsFields fields h.2 d f hf

end

/-! ### Injectivity -/

/-- Two values before delimiters are told apart by the scanner. -/
theorem passes_append_inj {t u s s' : Str} (ht : Passes (.value 0) t (.value 0))
    (hu : Passes (.value 0) u (.value 0)) (hs : scan (.value 0) s = [])
    (hs' : scan (.value 0) s' = []) (h : t ++ s = u ++ s') : t = u ∧ s = s' := by
  have heq : t = u := by
    have hscan := congrArg (scan (.value 0)) h
    rw [ht, hu, hs, hs', List.append_nil, List.append_nil] at hscan
    exact hscan
  subst heq
  exact ⟨rfl, List.append_cancel_left h⟩

/-- Nonempty values written one after the other and followed by a closing bracket are the same
values. -/
theorem joinComma_injective {close : Char} (hclose : ∀ s, scan (.value 0) (close :: s) = [])
    {ts us : List Str} (ht : ∀ t ∈ ts, t ≠ [] ∧ Passes (.value 0) t (.value 0))
    (hu : ∀ u ∈ us, u ≠ [] ∧ Passes (.value 0) u (.value 0))
    (h : joinComma ts ++ [close] = joinComma us ++ [close]) : ts = us := by
  induction ts generalizing us with
  | nil =>
    cases us with
    | nil => rfl
    | cons u us =>
      have hne : joinComma (u :: us) ≠ [] := by
        cases us with
        | nil => exact (hu u (List.mem_cons_self ..)).1
        | cons v vs => simp [joinComma]
      exact absurd (List.append_cancel_right h).symm hne
  | cons t ts ih =>
    cases us with
    | nil =>
      have hne : joinComma (t :: ts) ≠ [] := by
        cases ts with
        | nil => exact (ht t (List.mem_cons_self ..)).1
        | cons v vs => simp [joinComma]
      exact absurd (List.append_cancel_right h) hne
    | cons u us =>
      obtain ⟨-, htp⟩ := ht t (List.mem_cons_self ..)
      obtain ⟨-, hup⟩ := hu u (List.mem_cons_self ..)
      have hcomma : ∀ s, scan (.value 0) (',' :: s) = [] := fun _ => rfl
      cases ts with
      | nil =>
        cases us with
        | nil => rw [(passes_append_inj htp hup (hclose _) (hclose _) h).1]
        | cons v vs =>
          rw [joinComma, joinComma, List.append_assoc] at h
          have := (passes_append_inj htp hup (hclose _) (hcomma _) h).2
          have hlen := congrArg List.length this
          simp at hlen
      | cons v vs =>
        cases us with
        | nil =>
          rw [joinComma, joinComma, List.append_assoc] at h
          have := (passes_append_inj htp hup (hcomma _) (hclose _) h).2
          have hlen := congrArg List.length this
          simp at hlen
        | cons w ws =>
          rw [joinComma, joinComma, List.append_assoc, List.append_assoc] at h
          obtain ⟨rfl, hrest⟩ := passes_append_inj htp hup (hcomma _) (hcomma _) h
          have hrest' := (List.cons.inj hrest).2
          rw [ih (fun x hx => ht x (List.mem_cons_of_mem _ hx))
            (fun x hx => hu x (List.mem_cons_of_mem _ hx)) hrest']

theorem fieldText_injective {f g : Str × Str} (hf : ∀ c ∈ f.1, Plain c) (hg : ∀ c ∈ g.1, Plain c)
    (h : fieldText true f = fieldText true g) : f = g := by
  have hstop : ∀ key : Str, (∀ c ∈ key, Plain c) → ∀ rest,
      (key ++ '"' :: rest).takeWhile (· ≠ '"') = key := by
    intro key hkey rest
    rw [List.takeWhile_append_of_pos, List.takeWhile_cons_of_neg (by simp), List.append_nil]
    intro c hc
    simpa using (hkey c hc).2.2.1
  obtain ⟨key, value⟩ := f
  obtain ⟨key', value'⟩ := g
  simp only [fieldText, quote_plain hf, quote_plain hg, List.cons_append, List.append_assoc,
    List.nil_append, List.cons.injEq, true_and] at h
  have hkey : key = key' := by
    have := congrArg (List.takeWhile (· ≠ '"')) h
    rwa [hstop key hf, hstop key' hg] at this
  subst hkey
  simpa using h

theorem map_fieldText_injective {fs gs : List (Str × Str)} (hf : ∀ f ∈ fs, ∀ c ∈ f.1, Plain c)
    (hg : ∀ g ∈ gs, ∀ c ∈ g.1, Plain c) (h : fs.map (fieldText true) = gs.map (fieldText true)) :
    fs = gs := by
  induction fs generalizing gs with
  | nil => simpa using h.symm
  | cons f fs ih =>
    cases gs with
    | nil => simp at h
    | cons g gs =>
      rw [List.map_cons, List.map_cons, List.cons.injEq] at h
      rw [fieldText_injective (hf f (List.mem_cons_self ..)) (hg g (List.mem_cons_self ..)) h.1,
        ih (fun x hx => hf x (List.mem_cons_of_mem _ hx))
          (fun x hx => hg x (List.mem_cons_of_mem _ hx)) h.2]

/-- Items with distinct keys are determined by their keys in order and by which items there are. -/
theorem eq_of_perm_of_keys {l m : List (Str × Str)} (hkeys : l.map Prod.fst = m.map Prod.fst)
    (hnd : (l.map Prod.fst).Nodup) (h : l.Perm m) : l = m := by
  induction l generalizing m with
  | nil => exact h.nil_eq
  | cons p l ih =>
    cases m with
    | nil => exact absurd h.eq_nil (by simp)
    | cons q m =>
      rw [List.map_cons, List.map_cons, List.cons.injEq] at hkeys
      rw [List.map_cons, List.nodup_cons] at hnd
      have hpq : p = q := by
        rcases List.mem_cons.mp (h.subset (List.mem_cons_self ..)) with hp | hp
        · exact hp
        · exact absurd (hkeys.2 ▸ List.mem_map_of_mem hp) hnd.1
      subst hpq
      rw [ih hkeys.2 hnd.2 (List.Perm.cons_inv h)]

/-- Two float-free objects with the same distinct keys and one canonical text have the same
values. -/
theorem canonical_obj_injective {fields fields' : List (Str × Json)}
    (hkeys : fields.map Prod.fst = fields'.map Prod.fst) (hnd : (fields.map Prod.fst).Nodup)
    (hplain : ∀ k ∈ fields.map Prod.fst, ∀ c ∈ k, Plain c)
    (hfree : floatFree (.obj fields) = true) (hfree' : floatFree (.obj fields') = true)
    (h : canonical (.obj fields) = canonical (.obj fields')) :
    fields.map (fun f => canonical f.2) = fields'.map (fun f => canonical f.2) := by
  have hpass : ∀ fields : List (Str × Json), floatFree (.obj fields) = true →
      ∀ t ∈ (sortFields (dumpsFields true fields)).map (fieldText true),
        t ≠ [] ∧ Passes (.value 0) t (.value 0) := by
    intro fields hfree t ht
    obtain ⟨f, hf, rfl⟩ := List.mem_map.mp ht
    refine ⟨by simp [fieldText, quote], passes_fieldText ?_⟩
    rw [floatFree] at hfree
    exact passes_dumpsFields fields hfree 0 f ((List.perm_insertionSort _ _).subset hf)
  have hkey : ∀ fields : List (Str × Json), (∀ k ∈ fields.map Prod.fst, ∀ c ∈ k, Plain c) →
      ∀ f ∈ sortFields (dumpsFields true fields), ∀ c ∈ f.1, Plain c := by
    intro fields hplain f hf
    have hmem := (List.perm_insertionSort _ _).subset hf
    rw [dumpsFields_eq_map] at hmem
    obtain ⟨g, hg, rfl⟩ := List.mem_map.mp hmem
    exact hplain g.1 (List.mem_map_of_mem hg)
  rw [canonical, canonical, dumps, dumps] at h
  have htexts := joinComma_injective (fun _ => rfl) (hpass fields hfree) (hpass fields' hfree')
    (List.cons.inj h).2
  -- the field texts agree one by one, and each of them determines its field
  have hsorted := map_fieldText_injective (hkey fields hplain) (hkey fields' (hkeys ▸ hplain)) htexts
  have hsort : ∀ fs : List (Str × Str), (sortFields fs).Perm fs :=
    fun fs => List.perm_insertionSort _ fs
  have hperm : (dumpsFields true fields).Perm (dumpsFields true fields') :=
    (hsort _).symm.trans (hsorted ▸ hsort _)
  have hfst : ∀ fields : List (Str × Json),
      (dumpsFields true fields).map Prod.fst = fields.map Prod.fst := by
    intro fields
    rw [dumpsFields_eq_map, List.map_map]
    rfl
  have heq := eq_of_perm_of_keys ((hfst fields).trans (hkeys.trans (hfst fields').symm))
    (hfst fields ▸ hnd) hperm
  rw [dumpsFields_eq_map, dumpsFields_eq_map] at heq
  simpa [List.map_map, Function.comp_def, canonical] using congrArg (List.map Prod.snd) heq

/-! ### Escaped characters -/

/-- The value of a hexadecimal digit. -/
def hexValue (c : Char) : Nat := if c.toNat < 58 then c.toNat - 48 else c.toNat - 87

theorem hexValue_hexDigit {n : Nat} (h : n < 16) : hexValue (hexDigit n) = n := by
  revert n
  decide

/-- The code unit whose four digits a text begins with. -/
def readUnit : Str → Nat
  | a :: b :: c :: d :: _ => hexValue a * 4096 + hexValue b * 256 + hexValue c * 16 + hexValue d
  | _ => 0

/-- The code point after `\u`: a code unit, or two of them if the first is a high surrogate. -/
def readUnits (s : Str) : Nat :=
  if 55296 ≤ readUnit s ∧ readUnit s < 56320 then
    65536 + (readUnit s - 55296) * 1024 + (readUnit (s.drop 6) - 56320)
  else readUnit s

/-- The code point after a backslash. -/
def readEscape : Str → Nat
  | [] => 0
  | d :: s => if d = 'n' then 10 else if d = 'r' then 13 else if d = 't' then 9
    else if d = 'b' then 8 else if d = 'f' then 12 else if d = 'u' then readUnits s else d.toNat

/-- The code point an escaped text begins with. -/
def readChar : Str → Nat
  | [] => 0
  | c :: s => if c = '\\' then readEscape s else c.toNat

theorem readChar_unicode (s : Str) : readChar ('\\' :: 'u' :: s) = readUnits s := by
  rw [readChar, if_pos rfl, readEscape, if_neg (by decide), if_neg (by decide), if_neg (by decide),
    if_neg (by decide), if_neg (by decide), if_pos rfl]

theorem readUnit_digits {n : Nat} (h : n < 65536) (s : Str) :
    readUnit (hexDigit (n / 4096 % 16) :: hexDigit (n / 256 % 16) :: hexDigit (n / 16 % 16)
      :: hexDigit (n % 16) :: s) = n := by
  rw [readUnit, hexValue_hexDigit (by omega), hexValue_hexDigit (by omega),
    hexValue_hexDigit (by omega), hexValue_hexDigit (by omega)]
  omega

theorem readChar_escapeChar (c : Char) (s : Str) : readChar (escapeChar true c ++ s) = c.toNat := by
  have hvalid : c.toNat < 55296 ∨ 57343 < c.toNat ∧ c.toNat < 1114112 := by
    rcases c.valid with h | h
    · exact .inl h
    · exact .inr h
  unfold escapeChar
  split_ifs with h1 h2 h3 h4 h5 h6 h7 h8 h9 h10
  · rw [h1]; rfl
  · rw [h2]; rfl
  · rw [h3]; rfl
  · rw [h4]; rfl
  · rw [h5]; rfl
  · rw [h6]; rfl
  · rw [h7]; rfl
  · rw [unicodeEscape, List.cons_append, List.cons_append, readChar_unicode, readUnits]
    simp only [List.cons_append, readUnit_digits (show c.toNat < 65536 by omega)]
    rw [if_neg (by omega)]
  · rw [List.singleton_append, readChar, if_neg h2]
  · rw [unicodeEscape, List.cons_append, List.cons_append, readChar_unicode, readUnits]
    simp only [List.cons_append, readUnit_digits h10]
    rw [if_neg (by omega)]
  · -- a surrogate pair
    simp only [unicodeEscape, List.cons_append, List.nil_append, readChar_unicode, readUnits,
      List.drop_succ_cons, List.drop_zero]
    rw [readUnit_digits (by omega), readUnit_digits (by omega), if_pos (by omega)]
    omega

theorem escapeChar_append_injective {c d : Char} {s t : Str}
    (h : escapeChar true c ++ s = escapeChar true d ++ t) : c = d ∧ s = t := by
  have hcd : c = d := by
    have := congrArg readChar h
    rw [readChar_escapeChar, readChar_escapeChar] at this
    exact Char.toNat_inj.mp this
  subst hcd
  exact ⟨rfl, List.append_cancel_left h⟩

/-- A text is determined by the JSON string written for it. -/
theorem quote_injective : Function.Injective (quote true) := by
  intro s t h
  replace h := List.append_cancel_right (List.cons.inj h).2
  have hne : ∀ (c : Char) (s : Str), [] ≠ (c :: s).flatMap (escapeChar true) := by
    intro c s hnil
    have := (List.append_eq_nil_iff.mp hnil.symm).1
    have hread := readChar_escapeChar c ['a']
    have hread' := readChar_escapeChar c ['b']
    rw [this] at hread hread'
    exact absurd (hread.trans hread'.symm) (by decide)
  induction s generalizing t with
  | nil =>
    cases t with
    | nil => rfl
    | cons d t => exact absurd h (hne d t)
  | cons c s ih =>
    cases t with
    | nil => exact absurd h.symm (hne c s)
    | cons d t =>
      obtain ⟨rfl, hst⟩ := escapeChar_append_injective h
      rw [ih hst]

theorem canonical_str_injective {s t : Str} (h : canonical (.str s) = canonical (.str t)) : s = t :=
  quote_injective h

/-- A list of texts is determined by the JSON array written for it. -/
theorem dumps_strs_injective :
    Function.Injective fun parts : List Str => dumps true (.arr (parts.map .str)) := by
  intro s t h
  have hpass : ∀ parts : List Str, ∀ u ∈ dumpsItems true (parts.map .str),
      u ≠ [] ∧ Passes (.value 0) u (.value 0) := by
    intro parts u hu
    have hmem := hu
    rw [dumpsItems_eq_map, List.map_map] at hmem
    obtain ⟨part, -, rfl⟩ := List.mem_map.mp hmem
    exact ⟨List.cons_ne_nil _ _, passes_dumps (.str part) rfl 0⟩
  dsimp only at h
  rw [dumps, dumps] at h
  have hitems := joinComma_injective (fun _ => rfl) (hpass s) (hpass t) (List.cons.inj h).2
  rw [dumpsItems_eq_map, dumpsItems_eq_map, List.map_map, List.map_map] at hitems
  exact List.map_injective_iff.mpr quote_injective hitems

theorem toDigits_injective {m n : Nat} (h : Nat.toDigits 10 m = Nat.toDigits 10 n) : m = n := by
  have hm : Nat.ofDigitChars 10 (Nat.toDigits 10 m) 0 = m := Nat.ofDigitChars_ten_toDigits
  have hn : Nat.ofDigitChars 10 (Nat.toDigits 10 n) 0 = n := Nat.ofDigitChars_ten_toDigits
  rw [← hm, ← hn, h]

end Polymind.Json
