import Mathlib.Data.List.Sort
import Mathlib.Algebra.BigOperators.Group.List.Basic
import Mathlib.Data.Nat.Digits.Defs
import Mathlib.Tactic.Ring

/-!
# JSON texts

`Json` is the value tree a JSON encoder is given, `canonical` the text Python's
`json.dumps(value, sort_keys=True, separators=(',', ':'), ensure_ascii=True)` writes for it, and
`dumps false` the same text with `ensure_ascii=False`.

Sizes are measured by an arbitrary weight on characters: `weight μ s` is the sum of `μ` over `s`.
At `μ = 1` it is the length of a text, and at `μ = fun c => (escapeChar true c).length` it is the
length the text takes once more inside a JSON string (`weight_quote`).  `weight_canonical_obj` and
`weight_canonical_arr` say how the weight of an object and an array is made of its members', and
`length_canonical_le_bulk` bounds the length of a text without looking at characters.
-/

namespace Polymind

/-- A Python `str`: a sequence of code points. -/
abbrev Str := List Char

/-- The values a JSON encoder is given.  A float is held as the text `float.__repr__` gives it. -/
inductive Json where
  | null
  | bool (b : Bool)
  | int (i : Int)
  | float (repr : Str)
  | str (s : Str)
  | arr (items : List Json)
  | obj (fields : List (Str × Json))

namespace Json

/-! ### Strings -/

def hexDigit (n : Nat) : Char :=
  if n < 10 then Char.ofNat (48 + n) else Char.ofNat (87 + n)

/-- `\uXXXX` for a code unit. -/
def unicodeEscape (n : Nat) : Str :=
  ['\\', 'u', hexDigit (n / 4096 % 16), hexDigit (n / 256 % 16), hexDigit (n / 16 % 16),
    hexDigit (n % 16)]

/-- One character inside a JSON string.  With `ascii` every character outside `' '..'~'` is
escaped, the ones above the basic plane by a surrogate pair. -/
def escapeChar (ascii : Bool) (c : Char) : Str :=
  if c = '"' then ['\\', '"']
  else if c = '\\' then ['\\', '\\']
  else if c = '\n' then ['\\', 'n']
  else if c = '\r' then ['\\', 'r']
  else if c = '\t' then ['\\', 't']
  else if c = '\x08' then ['\\', 'b']
  else if c = '\x0c' then ['\\', 'f']
  else if c.toNat < 32 then unicodeEscape c.toNat
  else if c.toNat < 127 ∨ ascii = false then [c]
  else if c.toNat < 65536 then unicodeEscape c.toNat
  else unicodeEscape (55296 + (c.toNat - 65536) / 1024) ++
    unicodeEscape (56320 + (c.toNat - 65536) % 1024)

def quote (ascii : Bool) (s : Str) : Str :=
  '"' :: (s.flatMap (escapeChar ascii) ++ ['"'])

/-! ### Values -/

def intText : Int → Str
  | .ofNat n => Nat.toDigits 10 n
  | .negSucc n => '-' :: Nat.toDigits 10 (n + 1)

/-- `','.join(parts)`. -/
def joinComma : List Str → Str
  | [] => []
  | [t] => t
  | t :: u :: ts => t ++ ',' :: joinComma (u :: ts)

/-- Python's order on strings: lexicographic by code point. -/
def keyLe : Str → Str → Bool
  | [], _ => true
  | _ :: _, [] => false
  | a :: s, b :: t => if a.toNat < b.toNat then true
    else if b.toNat < a.toNat then false else keyLe s t

/-- Members of an object, already written, in the order of `sort_keys`. -/
def sortFields (fields : List (Str × Str)) : List (Str × Str) :=
  fields.insertionSort (fun a b => keyLe a.1 b.1 = true)

def fieldText (ascii : Bool) (field : Str × Str) : Str :=
  quote ascii field.1 ++ ':' :: field.2

mutual

/-- `json.dumps(value, sort_keys=True, separators=(',', ':'), ensure_ascii=ascii)`. -/
def dumps (ascii : Bool) : Json → Str
  | .null => ['n', 'u', 'l', 'l']
  | .bool true => ['t', 'r', 'u', 'e']
  | .bool false => ['f', 'a', 'l', 's', 'e']
  | .int i => intText i
  | .float r => r
  | .str s => quote ascii s
  | .arr items => '[' :: (joinComma (dumpsItems ascii items) ++ [']'])
  | .obj fields =>
    '{' :: (joinComma ((sortFields (dumpsFields ascii fields)).map (fieldText ascii)) ++ ['}'])

def dumpsItems (ascii : Bool) : List Json → List Str
  | [] => []
  | item :: items => dumps ascii item :: dumpsItems ascii items

def dumpsFields (ascii : Bool) : List (Str × Json) → List (Str × Str)
  | [] => []
  | (key, value) :: fields => (key, dumps ascii value) :: dumpsFields ascii fields

end

/-- `canonical(value)`: compact ASCII JSON with sorted keys. -/
def canonical (value : Json) : Str := dumps true value

theorem dumpsItems_eq_map (ascii : Bool) (items : List Json) :
    dumpsItems ascii items = items.map (dumps ascii) := by
  induction items with
  | nil => rfl
  | cons item items ih => rw [dumpsItems, ih, List.map_cons]

theorem dumpsFields_eq_map (ascii : Bool) (fields : List (Str × Json)) :
    dumpsFields ascii fields = fields.map (fun f => (f.1, dumps ascii f.2)) := by
  induction fields with
  | nil => rfl
  | cons f fields ih => obtain ⟨key, value⟩ := f; rw [dumpsFields, ih, List.map_cons]

example : canonical (.arr [.int 3, .null, .str ['é', '"']]) = "[3,null,\"\\u00e9\\\"\"]".toList := by
  decide

/-! ### Weights -/

/-- The sum of a weight `μ` over the characters of a text. -/
def weight (μ : Char → Nat) (s : Str) : Nat := (s.map μ).sum

/-- The number of bytes a character takes inside an ASCII JSON string. -/
def escapedLength (c : Char) : Nat := (escapeChar true c).length

variable (μ : Char → Nat)

@[simp] theorem weight_nil : weight μ [] = 0 := rfl

@[simp] theorem weight_cons (c : Char) (s : Str) : weight μ (c :: s) = μ c + weight μ s := rfl

@[simp] theorem weight_append (s t : Str) : weight μ (s ++ t) = weight μ s + weight μ t := by
  simp [weight]

theorem weight_flatMap (f : Char → Str) (s : Str) :
    weight μ (s.flatMap f) = weight (fun c => weight μ (f c)) s := by
  induction s with
  | nil => rfl
  | cons c s ih => rw [List.flatMap_cons, weight_append, ih, weight_cons]

theorem weight_one (s : Str) : weight (fun _ => 1) s = s.length := by
  simp [weight]

/-- The characters that stand for themselves in a JSON string. -/
def Plain (c : Char) : Prop := 32 ≤ c.toNat ∧ c.toNat < 127 ∧ c ≠ '"' ∧ c ≠ '\\'

instance : DecidablePred Plain := fun c => by unfold Plain; infer_instance

/-- A computation over finitely many texts shows that their characters are plain. -/
theorem plain_of_all {α : Type*} {text : α → Str} {keys : List α}
    (h : (keys.all fun k => (text k).all fun c => decide (Plain c)) = true) :
    ∀ k ∈ keys, ∀ c ∈ text k, Plain c := by
  intro k hk c hc
  exact of_decide_eq_true (List.all_eq_true.mp (List.all_eq_true.mp h k hk) c hc)

theorem escapeChar_plain {c : Char} (h : Plain c) : escapeChar true c = [c] := by
  obtain ⟨hlo, hhi, hq, hb⟩ := h
  have hne : ∀ d : Char, d.toNat < 32 → c ≠ d := by
    rintro d hd rfl
    omega
  unfold escapeChar
  rw [if_neg hq, if_neg hb, if_neg (hne _ (by decide)), if_neg (hne _ (by decide)),
    if_neg (hne _ (by decide)), if_neg (hne _ (by decide)), if_neg (hne _ (by decide)),
    if_neg (by omega), if_pos (Or.inl hhi)]

theorem quote_plain {s : Str} (h : ∀ c ∈ s, Plain c) : quote true s = '"' :: (s ++ ['"']) := by
  have hs : s.flatMap (escapeChar true) = s := by
    induction s with
    | nil => rfl
    | cons c s ih =>
      rw [List.flatMap_cons, escapeChar_plain (h c (List.mem_cons_self ..)),
        ih (fun d hd => h d (List.mem_cons_of_mem _ hd))]
      rfl
  rw [quote, hs]

theorem weight_joinComma (ts : List Str) :
    weight μ (joinComma ts) = (ts.map (weight μ)).sum + (ts.length - 1) * μ ',' := by
  induction ts with
  | nil => simp [joinComma]
  | cons t ts ih =>
    cases ts with
    | nil => simp [joinComma]
    | cons u us =>
      rw [joinComma, weight_append, weight_cons, ih]
      simp only [List.map_cons, List.sum_cons, List.length_cons, Nat.add_sub_cancel]
      ring

/-- The weight of an array is that of its items, its brackets and its commas. -/
theorem weight_dumps_arr (ascii : Bool) (items : List Json) :
    weight μ (dumps ascii (.arr items))
      = μ '[' + μ ']' + (items.map (fun v => weight μ (dumps ascii v))).sum
        + (items.length - 1) * μ ',' := by
  rw [dumps, weight_cons, weight_append, weight_joinComma, dumpsItems_eq_map]
  simp only [List.map_map, List.length_map, weight_cons, weight_nil, Function.comp_def]
  ring

/-- The weight of an object is that of its members, its braces and its commas: the order in which
`sort_keys` writes them does not matter. -/
theorem weight_dumps_obj (ascii : Bool) (fields : List (Str × Json)) :
    weight μ (dumps ascii (.obj fields))
      = μ '{' + μ '}'
        + (fields.map (fun f =>
            weight μ (quote ascii f.1) + μ ':' + weight μ (dumps ascii f.2))).sum
        + (fields.length - 1) * μ ',' := by
  have hperm : (sortFields (dumpsFields ascii fields)).Perm (dumpsFields ascii fields) :=
    List.perm_insertionSort _ _
  have hsum : (((sortFields (dumpsFields ascii fields)).map (fieldText ascii)).map (weight μ)).sum
      = (fields.map (fun f =>
          weight μ (quote ascii f.1) + μ ':' + weight μ (dumps ascii f.2))).sum := by
    rw [((hperm.map (fieldText ascii)).map (weight μ)).sum_eq, dumpsFields_eq_map]
    simp only [List.map_map]
    refine congrArg List.sum (List.map_congr_left fun f _ => ?_)
    simp only [Function.comp, fieldText, weight_append, weight_cons]
    ring
  have hlen : (sortFields (dumpsFields ascii fields)).length = fields.length := by
    rw [hperm.length_eq, dumpsFields_eq_map, List.length_map]
  rw [dumps, weight_cons, weight_append, weight_joinComma, hsum, List.length_map, hlen]
  simp only [weight_cons, weight_nil]
  omega

theorem weight_canonical_arr (items : List Json) :
    weight μ (canonical (.arr items))
      = μ '[' + μ ']' + (items.map (fun v => weight μ (canonical v))).sum
        + (items.length - 1) * μ ',' :=
  weight_dumps_arr μ true items

theorem weight_canonical_obj (fields : List (Str × Json)) :
    weight μ (canonical (.obj fields))
      = μ '{' + μ '}'
        + (fields.map (fun f => weight μ (quote true f.1) + μ ':' + weight μ (canonical f.2))).sum
        + (fields.length - 1) * μ ',' :=
  weight_dumps_obj μ true fields

/-- A text of plain characters is not lengthened by escaping. -/
theorem weight_escapedLength_plain {s : Str} (h : ∀ c ∈ s, Plain c) :
    weight escapedLength s = s.length := by
  induction s with
  | nil => rfl
  | cons c s ih =>
    have hc : escapedLength c = 1 := by
      rw [escapedLength, escapeChar_plain (h c (List.mem_cons_self ..))]
      rfl
    rw [weight_cons, hc, ih fun d hd => h d (List.mem_cons_of_mem _ hd), List.length_cons]
    omega

/-- Escaping never shortens a text. -/
theorem length_le_weight_escapedLength (s : Str) : s.length ≤ weight escapedLength s := by
  induction s with
  | nil => exact Nat.le_refl 0
  | cons c s ih =>
    have hc : 1 ≤ escapedLength c := by
      unfold escapedLength escapeChar
      split_ifs <;> simp [unicodeEscape]
    rw [weight_cons, List.length_cons]
    omega

/-- The length of a text as a JSON string is its weight under `escapedLength`, quotes apart. -/
theorem length_quote (s : Str) : (quote true s).length = weight escapedLength s + 2 := by
  rw [← weight_one, quote, weight_cons, weight_append, weight_flatMap, weight_cons, weight_nil]
  simp only [weight_one]
  rw [show (fun c => (escapeChar true c).length) = escapedLength from rfl]
  ring

/-! ### A bound -/

/-- One character becomes at most twelve. -/
theorem length_escapeChar_le (ascii : Bool) (c : Char) : (escapeChar ascii c).length ≤ 12 := by
  unfold escapeChar
  split_ifs <;> simp [unicodeEscape]

theorem length_quote_le (ascii : Bool) (s : Str) : (quote ascii s).length ≤ 12 * s.length + 2 := by
  have hbody : (s.flatMap (escapeChar ascii)).length ≤ 12 * s.length := by
    induction s with
    | nil => exact Nat.le_refl 0
    | cons c s ih =>
      have := length_escapeChar_le ascii c
      rw [List.flatMap_cons, List.length_append, List.length_cons]
      omega
  have hquotes : (quote ascii s).length = (s.flatMap (escapeChar ascii)).length + 2 := by
    simp [quote]
  omega

theorem length_intText_le (i : Int) : (intText i).length ≤ i.natAbs.log2 + 2 := by
  have hdigits : ∀ n : Nat, (Nat.toDigits 10 n).length ≤ n.log2 + 1 := by
    intro n
    refine (Nat.length_toDigits_le_iff (by decide) (Nat.succ_pos _)).mpr ?_
    exact Nat.lt_log2_self.trans_le (Nat.pow_le_pow_left (by decide) _)
  cases i with
  | ofNat n => exact (hdigits n).trans (Nat.le_succ _)
  | negSucc n => exact Nat.succ_le_succ (hdigits (n + 1))

mutual

/-- A bound on the length of the canonical text that does not look at characters. -/
def bulk : Json → Nat
  | .null => 4
  | .bool _ => 5
  | .int i => i.natAbs.log2 + 2
  | .float r => r.length
  | .str s => 12 * s.length + 2
  | .arr items => 2 + bulkItems items
  | .obj fields => 2 + bulkFields fields

def bulkItems : List Json → Nat
  | [] => 0
  | item :: items => bulk item + 1 + bulkItems items

def bulkFields : List (Str × Json) → Nat
  | [] => 0
  | (key, value) :: fields => 12 * key.length + 4 + bulk value + bulkFields fields

end

mutual

theorem length_dumps_le_bulk (ascii : Bool) : ∀ v : Json, (dumps ascii v).length ≤ bulk v
  | .null => Nat.le_refl _
  | .bool true => by decide +revert
  | .bool false => by decide +revert
  | .int i => length_intText_le i
  | .float _ => Nat.le_refl _
  | .str s => length_quote_le ascii s
  | .arr items => by
    have h := sum_length_items_le_bulk ascii items
    rw [← weight_one, weight_dumps_arr, bulk]
    simp only [weight_one]
    omega
  | .obj fields => by
    have h := sum_length_fields_le_bulk ascii fields
    rw [← weight_one, weight_dumps_obj, bulk]
    simp only [weight_one]
    omega

theorem sum_length_items_le_bulk (ascii : Bool) : ∀ items : List Json,
    (items.map fun v => (dumps ascii v).length).sum + items.length ≤ bulkItems items
  | [] => Nat.le_refl _
  | item :: items => by
    have h := length_dumps_le_bulk ascii item
    have hs := sum_length_items_le_bulk ascii items
    rw [bulkItems, List.map_cons, List.sum_cons, List.length_cons]
    omega

theorem sum_length_fields_le_bulk (ascii : Bool) : ∀ fields : List (Str × Json),
    (fields.map fun f => (quote ascii f.1).length + 1 + (dumps ascii f.2).length).sum + fields.length
      ≤ bulkFields fields
  | [] => Nat.le_refl _
  | (key, value) :: fields => by
    have hkey := length_quote_le ascii key
    have h := length_dumps_le_bulk ascii value
    have hs := sum_length_fields_le_bulk ascii fields
    rw [bulkFields, List.map_cons, List.sum_cons, List.length_cons]
    dsimp only
    omega

end

theorem length_canonical_le_bulk (v : Json) : (canonical v).length ≤ bulk v :=
  length_dumps_le_bulk true v

end Polymind.Json
