import Polymind.Documents.Ids
import Polymind.Lib.JsonInjective

/-!
# The assumptions on identities are consistent

`Ids.CollisionFree` and `Ids.FixedWidth` each hold of concrete functions, so that nothing proved
under one of them is vacuous.  They exclude each other: there are more texts than identities of a
fixed width.

Identities and digests are taken by position in a table, with a code of the text for all texts that
are not in it.

* `tableIds_collisionFree`: they have no collisions;
* `tableIds_fixedWidth`: brought to a width, they have it.
-/

namespace Polymind

open Json

/-! ### Codes of texts -/

/-- A number for each text: its characters as digits. -/
def code : Str → Nat
  | [] => 1
  | c :: s => code s * 1114112 + c.toNat

theorem code_pos (s : Str) : 0 < code s := by
  induction s with
  | nil => exact Nat.one_pos
  | cons c s ih =>
    rw [code]
    omega

theorem toNat_lt (c : Char) : c.toNat < 1114112 := by
  rcases c.valid with h | h
  · exact h.trans (by decide)
  · exact h.2

theorem code_injective : Function.Injective code := by
  intro s t h
  induction s generalizing t with
  | nil =>
    cases t with
    | nil => rfl
    | cons d t =>
      have := code_pos t
      rw [code, code] at h
      omega
  | cons c s ih =>
    have hc := toNat_lt c
    cases t with
    | nil =>
      have := code_pos s
      rw [code, code] at h
      omega
    | cons d t =>
      have hd := toNat_lt d
      rw [code, code] at h
      have hst : code s = code t := by omega
      have hcd : c.toNat = d.toNat := by omega
      rw [ih hst, Char.toNat_inj.mp hcd]

theorem code_lt (s : Str) : code s < 10 ^ (7 * s.length + 7) := by
  induction s with
  | nil => exact Nat.one_lt_pow (by omega) (by omega)
  | cons c s ih =>
    have hc := toNat_lt c
    have hpow : 10 ^ (7 * (s.length + 1) + 7) = 10 ^ (7 * s.length + 7) * 10000000 := by
      rw [show 7 * (s.length + 1) + 7 = 7 * s.length + 7 + 7 by omega, Nat.pow_add]
    rw [code, List.length_cons, hpow]
    omega

/-- The position of a text in a table, or a number of its own. -/
def slot (table : List Str) (s : Str) : Nat :=
  if table.idxOf s < table.length then table.idxOf s else table.length + code s

theorem slot_injective (table : List Str) : Function.Injective (slot table) := by
  intro s t h
  unfold slot at h
  simp only [List.idxOf_lt_length_iff] at h
  have hlt : ∀ {r}, r ∈ table → table.idxOf r < table.length := List.idxOf_lt_length_of_mem
  by_cases hs : s ∈ table <;> by_cases ht : t ∈ table
  · rw [if_pos hs, if_pos ht] at h
    exact (List.idxOf_inj hs).mp h
  · rw [if_pos hs, if_neg ht] at h
    have := hlt hs
    omega
  · rw [if_neg hs, if_pos ht] at h
    have := hlt ht
    omega
  · rw [if_neg hs, if_neg ht] at h
    exact code_injective (by omega)

theorem slot_le (table : List Str) (s : Str) : slot table s ≤ table.length + code s := by
  unfold slot
  split
  · exact List.idxOf_le_length.trans (Nat.le_add_right ..)
  · exact Nat.le_refl _

/-! ### Digits -/

/-- The text of a UUID whose last part is a number; `10 ^ 11` gives it twelve digits. -/
def uuidText (n : Nat) : Str := "00000000-0000-5000-8000-".toList ++ Nat.toDigits 10 (10 ^ 11 + n)

/-- The text of a digest; `10 ^ 63` gives it sixty-four digits. -/
def digestDigits (n : Nat) : Str := Nat.toDigits 10 (10 ^ 63 + n)

theorem uuidText_injective : Function.Injective uuidText := fun m n h => by
  have := toDigits_injective (List.append_cancel_left h)
  omega

theorem digestDigits_injective : Function.Injective digestDigits := fun m n h => by
  have := toDigits_injective h
  omega

theorem isHexChar_of_mem_toDigits {n : Nat} {c : Char} (h : c ∈ Nat.toDigits 10 n) :
    isHexChar c = true := by
  have hdigit := Nat.isDigit_of_mem_toDigits (by decide) (by decide) h
  simp only [Char.isDigit, Bool.and_eq_true, decide_eq_true_eq, UInt32.le_iff_toNat_le] at hdigit
  simp only [isHexChar, Char.toNat, Bool.or_eq_true, Bool.and_eq_true, decide_eq_true_eq]
  exact .inl hdigit

theorem uuidText_chars (n : Nat) : ∀ c ∈ uuidText n, isHexChar c = true ∨ c = '-' := by
  intro c hc
  have hfixed : ("00000000-0000-5000-8000-".toList.all fun c => isHexChar c || c = '-') = true := by
    decide
  rcases List.mem_append.mp hc with hc | hc
  · simpa using List.all_eq_true.mp hfixed c hc
  · exact .inl (isHexChar_of_mem_toDigits hc)

/-- A text with another character in it is no identity. -/
theorem uuidText_ne (n : Nat) {s : Str} {c : Char} (hc : c ∈ s) (hhex : isHexChar c = false)
    (hdash : c ≠ '-') : uuidText n ≠ s := by
  intro h
  rcases uuidText_chars n c (h ▸ hc) with hc | hc
  · rw [hhex] at hc
    exact Bool.false_ne_true hc
  · exact hdash hc

theorem uuidText_ne_digestDigits (m n : Nat) : uuidText m ≠ digestDigits n := by
  intro h
  have hdash : '-' ∈ "00000000-0000-5000-8000-".toList := by decide
  have hmem : '-' ∈ digestDigits n := h ▸ List.mem_append_left _ hdash
  exact absurd (isHexChar_of_mem_toDigits hmem) (by decide)

/-- A number with `k` digits. -/
theorem length_toDigits {n k : Nat} (hlo : 10 ^ k ≤ n) (hhi : n < 10 ^ (k + 1)) :
    (Nat.toDigits 10 n).length = k + 1 := by
  refine Nat.le_antisymm ((Nat.length_toDigits_le_iff (by decide) (by omega)).mpr hhi) ?_
  by_contra hlt
  rcases Nat.eq_zero_or_pos k with rfl | hk
  · have := Nat.length_toDigits_pos (b := 10) (n := n)
    omega
  · have := (Nat.length_toDigits_le_iff (by decide) hk).mp (Nat.le_of_not_lt hlt)
    omega

theorem length_uuidText {n : Nat} (h : n < 9 * 10 ^ 11) : (uuidText n).length = 36 := by
  have hlength : (Nat.toDigits 10 (10 ^ 11 + n)).length = 12 := length_toDigits (by omega) (by omega)
  have hfixed : "00000000-0000-5000-8000-".toList.length = 24 := by decide
  have hsum : (uuidText n).length
      = "00000000-0000-5000-8000-".toList.length + (Nat.toDigits 10 (10 ^ 11 + n)).length :=
    List.length_append
  omega

theorem length_digestDigits {n : Nat} (h : n < 9 * 10 ^ 63) : (digestDigits n).length = 64 :=
  length_toDigits (by omega) (by omega)

theorem isDigest_digestDigits {n : Nat} (h : n < 9 * 10 ^ 63) : isDigest (digestDigits n) = true := by
  rw [isDigest, length_digestDigits h, Bool.and_eq_true, List.all_eq_true]
  exact ⟨rfl, fun c hc => isHexChar_of_mem_toDigits hc⟩

/-! ### Identities -/

/-- The text `stable_id` hashes. -/
def partsText (parts : List Str) : Str := dumps true (.arr (parts.map .str))

/-- Identities and digests by position in two tables.  The numbers are brought to a width by `cut`,
or not at all. -/
def tableIds (cut : Nat → Nat → Nat) (uuids : List (List Str)) (digests : List Str) : Ids Nat where
  uuid5 := slot (uuids.map partsText)
  uuidStr n := uuidText (cut (9 * 10 ^ 11) n)
  sha256 s := digestDigits (cut (9 * 10 ^ 63) (slot digests s))
  floatRepr x := Nat.toDigits 10 x.num.toNat ++ ".0".toList
  divide m n := (m : ℚ) / n
  isPrintable c := 32 ≤ c.toNat && c.toNat < 127

/-- Numbers as they are. -/
def keep (_ n : Nat) : Nat := n

/-- Numbers below a bound. -/
def wrap (m n : Nat) : Nat := n % m

theorem tableIds_collisionFree (uuids : List (List Str)) (digests : List Str) :
    (tableIds keep uuids digests).CollisionFree where
  stableId_injective := fun _ _ h => dumps_strs_injective (slot_injective _ h)
  sha256_injective := fun _ _ h => slot_injective digests (digestDigits_injective h)
  uuidStr_injective := uuidText_injective
  uuidStr_chars := uuidText_chars

theorem tableIds_fixedWidth (uuids : List (List Str)) (digests : List Str) :
    (tableIds wrap uuids digests).FixedWidth where
  uuidStr_length n := length_uuidText (Nat.mod_lt n (by omega))
  uuidStr_chars n := uuidText_chars (wrap (9 * 10 ^ 11) n)
  sha256_digest s := isDigest_digestDigits (Nat.mod_lt (slot digests s) (by omega))

/-- An identity of the table is its position. -/
theorem stableId_tableIds {cut : Nat → Nat → Nat} {uuids : List (List Str)} {digests : List Str}
    (hnd : uuids.Nodup) {k : Nat} {parts : List Str} (hk : uuids[k]? = some parts) :
    (tableIds cut uuids digests).stableId parts = k := by
  obtain ⟨hlt, hget⟩ := List.getElem?_eq_some_iff.mp hk
  have hmap : (uuids.map partsText).Nodup := hnd.map dumps_strs_injective
  have hlt' : k < (uuids.map partsText).length := by rwa [List.length_map]
  have hat : (uuids.map partsText)[k] = partsText parts := by rw [List.getElem_map, hget]
  have hidx : (uuids.map partsText).idxOf (partsText parts) = k := by
    rw [← hat]
    exact hmap.idxOf_getElem k hlt'
  have hmem : partsText parts ∈ uuids.map partsText := hat ▸ List.getElem_mem hlt'
  exact (if_pos (List.idxOf_lt_length_iff.mpr hmem)).trans hidx

/-- The first digest of the table. -/
theorem sha256_tableIds {cut : Nat → Nat → Nat} {uuids : List (List Str)} {digests : List Str}
    {text : Str} (hnew : cut (9 * 10 ^ 63) 0 = 0) :
    (tableIds cut uuids (text :: digests)).sha256 text = digestDigits 0 := by
  have hslot : slot (text :: digests) text = 0 := by
    rw [slot, List.idxOf_cons_self]
    exact if_pos (by simp)
  exact congrArg digestDigits ((congrArg _ hslot).trans hnew)

/-! ### Lengths -/

/-- The digits of a number in a table, after some power of ten was added to it. -/
theorem length_toDigits_slot_le {table : List Str} {s : Str} {n k : Nat} (hn : n ≤ slot table s)
    (hk : k + 2 ≤ 70) (htable : table.length ≤ 10 ^ k) :
    (Nat.toDigits 10 (10 ^ k + n)).length ≤ 7 * s.length + 80 := by
  have hcode := code_lt s
  have hslot := slot_le table s
  have hpow : 10 ^ (7 * s.length + 7) ≤ 10 ^ (7 * s.length + 78) :=
    Nat.pow_le_pow_right (by omega) (by omega)
  have hbase : 10 ^ k ≤ 10 ^ (7 * s.length + 78) := Nat.pow_le_pow_right (by omega) (by omega)
  have hbound : 10 ^ (7 * s.length + 80) = 10 ^ (7 * s.length + 78) * 100 := by
    rw [show 7 * s.length + 80 = 7 * s.length + 78 + 2 by omega, Nat.pow_add]
  refine (Nat.length_toDigits_le_iff (by decide) (by omega)).mpr ?_
  rw [hbound]
  omega

/-- The length of an identity, from that of the text it is made of. -/
theorem length_stableId_le {cut : Nat → Nat → Nat} (hcut : ∀ m n, cut m n ≤ n)
    {uuids : List (List Str)} (huuids : uuids.length ≤ 10 ^ 11) (digests : List Str)
    (parts : List Str) :
    ((tableIds cut uuids digests).uuidStr ((tableIds cut uuids digests).stableId parts)).length
      ≤ 7 * (partsText parts).length + 104 := by
  have hdigits : (Nat.toDigits 10 (10 ^ 11 + cut (9 * 10 ^ 11)
      ((tableIds cut uuids digests).stableId parts))).length ≤ 7 * (partsText parts).length + 80 :=
    length_toDigits_slot_le (hcut _ _) (by omega) (by rwa [List.length_map])
  have hfixed : "00000000-0000-5000-8000-".toList.length = 24 := by decide
  refine List.length_append.trans_le ?_
  omega

/-- The length of a digest, likewise. -/
theorem length_sha256_le {cut : Nat → Nat → Nat} (hcut : ∀ m n, cut m n ≤ n)
    (uuids : List (List Str)) {digests : List Str} (hdigests : digests.length ≤ 10 ^ 63) (s : Str) :
    ((tableIds cut uuids digests).sha256 s).length ≤ 7 * s.length + 80 :=
  length_toDigits_slot_le (hcut _ _) (by omega) hdigests

end Polymind
