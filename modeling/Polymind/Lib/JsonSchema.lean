import Polymind.Lib.Dict
import Polymind.Lib.Json
import Mathlib.Order.FixedPoints
import Mathlib.Data.List.Chain

/-!
# JSON Schema

What it means for a value to be valid for a schema, for the keywords of closed application schemas:
`type`, `enum`, `const`, the keywords on strings, `$ref` into `$defs`, `anyOf`, `properties`,
`required`, `additionalProperties` and `items`; other keywords are annotations.  A schema is a JSON
value.  Validity is the least relation closed under the rule that every keyword of a schema holds
(`valid_obj_iff`, `valid_induction`); a variant asks of every object that it carries all the
properties of the object schema that validates it.

`erase` removes the keywords on strings everywhere in a schema, and `Step` is the graph along which a
reader of a schema descends: into subschemas and along references.
-/

namespace Polymind.JsonSchema

open Json

universe u

/-! ### Reading a schema -/

/-- The items of an array. -/
def elements : Json → List Json
  | .arr items => items
  | _ => []

/-- The members of an object. -/
def members : Json → Dict Str Json
  | .obj fields => fields
  | _ => []

def isObject : Json → Bool
  | .obj _ => true
  | _ => false

/-- `value == text`. -/
def isText (text : String) : Json → Bool
  | .str s => s = text.toList
  | _ => false

/-- The value under a keyword, `node.get(keyword)`. -/
def keyword? (keywords : Dict Str Json) (name : String) : Option Json := keywords.get? name.toList

/-- The members under a keyword, `node.get(keyword, {})`. -/
def membersAt (keywords : Dict Str Json) (name : String) : Dict Str Json :=
  (keyword? keywords name).elim [] members

/-- The items under a keyword, `node.get(keyword, [])`. -/
def elementsAt (keywords : Dict Str Json) (name : String) : List Json :=
  (keyword? keywords name).elim [] elements

/-- `#/$defs/`. -/
def refPrefix : Str := "#/$defs/".toList

/-- The definition a local reference names, by its exact name. -/
def resolve (defs : Dict Str Json) : Json → Option Json
  | .str ref => if refPrefix.isPrefixOf ref then defs.get? (ref.drop refPrefix.length) else none
  | _ => none

/-- The definitions at the root of a schema. -/
def definitions (schema : Json) : Dict Str Json := membersAt (members schema) "$defs"

/-- The schemas a node descends into: those of its properties, alternatives and items. -/
def subschemas (node : Json) : List Json :=
  (membersAt (members node) "properties").map Prod.snd ++ elementsAt (members node) "anyOf"
    ++ (keyword? (members node) "items").toList

/-! ### Heights -/

mutual

/-- How deep a value is nested. -/
def height : Json → Nat
  | .arr items => heightItems items + 1
  | .obj fields => heightFields fields + 1
  | _ => 0

def heightItems : List Json → Nat
  | [] => 0
  | item :: items => max (height item) (heightItems items)

def heightFields : List (Str × Json) → Nat
  | [] => 0
  | (_, value) :: fields => max (height value) (heightFields fields)

end

theorem height_le_heightItems {items : List Json} {v : Json} (h : v ∈ items) :
    height v ≤ heightItems items := by
  induction items with
  | nil => exact absurd h List.not_mem_nil
  | cons item items ih =>
    rw [heightItems]
    rcases List.mem_cons.mp h with rfl | h
    · exact Nat.le_max_left _ _
    · exact (ih h).trans (Nat.le_max_right _ _)

theorem height_le_heightFields {fields : Dict Str Json} {p : Str × Json} (h : p ∈ fields) :
    height p.2 ≤ heightFields fields := by
  induction fields with
  | nil => exact absurd h List.not_mem_nil
  | cons q fields ih =>
    obtain ⟨key, value⟩ := q
    rw [heightFields]
    rcases List.mem_cons.mp h with rfl | h
    · exact Nat.le_max_left _ _
    · exact (ih h).trans (Nat.le_max_right _ _)

theorem height_lt_of_mem_elements {value v : Json} (h : v ∈ elements value) : height v < height value := by
  cases value with
  | arr items => exact Nat.lt_succ_of_le (height_le_heightItems h)
  | null => exact absurd h List.not_mem_nil
  | bool b => exact absurd h List.not_mem_nil
  | int i => exact absurd h List.not_mem_nil
  | float repr => exact absurd h List.not_mem_nil
  | str s => exact absurd h List.not_mem_nil
  | obj fields => exact absurd h List.not_mem_nil

theorem height_lt_of_mem_members {value : Json} {p : Str × Json} (h : p ∈ members value) :
    height p.2 < height value := by
  cases value with
  | obj fields => exact Nat.lt_succ_of_le (height_le_heightFields h)
  | null => exact absurd h List.not_mem_nil
  | bool b => exact absurd h List.not_mem_nil
  | int i => exact absurd h List.not_mem_nil
  | float repr => exact absurd h List.not_mem_nil
  | str s => exact absurd h List.not_mem_nil
  | arr items => exact absurd h List.not_mem_nil

theorem height_lt_of_keyword? {node value : Json} {name : String}
    (h : keyword? (members node) name = some value) : height value < height node :=
  height_lt_of_mem_members (Dict.mem_of_get? h)

theorem height_lt_of_mem_membersAt {node : Json} {name : String} {p : Str × Json}
    (h : p ∈ membersAt (members node) name) : height p.2 < height node := by
  unfold membersAt at h
  cases hvalue : keyword? (members node) name with
  | none =>
    rw [hvalue] at h
    exact absurd h List.not_mem_nil
  | some value =>
    rw [hvalue] at h
    exact (height_lt_of_mem_members h).trans (height_lt_of_keyword? hvalue)

theorem height_lt_of_mem_elementsAt {node v : Json} {name : String}
    (h : v ∈ elementsAt (members node) name) : height v < height node := by
  unfold elementsAt at h
  cases hvalue : keyword? (members node) name with
  | none =>
    rw [hvalue] at h
    exact absurd h List.not_mem_nil
  | some value =>
    rw [hvalue] at h
    exact (height_lt_of_mem_elements h).trans (height_lt_of_keyword? hvalue)

theorem height_lt_of_mem_subschemas {node child : Json} (h : child ∈ subschemas node) :
    height child < height node := by
  simp only [subschemas, List.mem_append, List.mem_map, Option.mem_toList] at h
  rcases h with (⟨p, hp, rfl⟩ | halt) | hitem
  · exact height_lt_of_mem_membersAt hp
  · exact height_lt_of_mem_elementsAt halt
  · exact height_lt_of_keyword? hitem

/-! ### Validity -/

/-- What JSON Schema takes from elsewhere: the equality of values, which floats are whole, and the
languages of formats and patterns. -/
structure Dialect where
  same : Json → Json → Prop
  isWhole : Str → Prop
  isFormat : Json → Str → Prop
  isMatch : Json → Str → Prop

variable (D : Dialect) (carriesAll : Prop) (defs : Dict Str Json)

/-- A value is of a type of JSON Schema. -/
def hasType (name : Str) : Json → Prop
  | .null => name = "null".toList
  | .bool _ => name = "boolean".toList
  | .int _ => name = "integer".toList ∨ name = "number".toList
  | .float repr => name = "number".toList ∨ name = "integer".toList ∧ D.isWhole repr
  | .str _ => name = "string".toList
  | .arr _ => name = "array".toList
  | .obj _ => name = "object".toList

/-- The keywords on strings. -/
structure StringKeywords (keywords : Dict Str Json) (s : Str) : Prop where
  format : ∀ name, keyword? keywords "format" = some name → D.isFormat name s
  minLength : ∀ n : Nat, keyword? keywords "minLength" = some (.int n) → n ≤ s.length
  maxLength : ∀ n : Nat, keyword? keywords "maxLength" = some (.int n) → s.length ≤ n
  pattern : ∀ regex, keyword? keywords "pattern" = some regex → D.isMatch regex s

/-- Every keyword of a schema holds of a value, `P` being the validity of its subschemas. -/
structure Keywords (P : Json → Json → Prop) (keywords : Dict Str Json) (v : Json) : Prop where
  type : ∀ t, keyword? keywords "type" = some t →
    ∃ name, (t = .str name ∨ .str name ∈ elements t) ∧ hasType D name v
  enum : ∀ e, keyword? keywords "enum" = some e → ∃ x ∈ elements e, D.same x v
  const : ∀ x, keyword? keywords "const" = some x → D.same x v
  strings : ∀ s, v = .str s → StringKeywords D keywords s
  ref : ∀ ref, keyword? keywords "$ref" = some ref → ∃ target, resolve defs ref = some target ∧ P target v
  anyOf : ∀ alts, keyword? keywords "anyOf" = some alts → ∃ schema ∈ elements alts, P schema v
  properties : ∀ p ∈ membersAt keywords "properties", ∀ w, (members v).get? p.1 = some w → P p.2 w
  additional : ∀ schema, keyword? keywords "additionalProperties" = some schema →
    ∀ m ∈ members v, m.1 ∉ (membersAt keywords "properties").map Prod.fst → P schema m.2
  required : isObject v = true → ∀ name ∈ elementsAt keywords "required",
    ∃ key ∈ (members v).map Prod.fst, name = .str key
  items : ∀ schema, keyword? keywords "items" = some schema → ∀ w ∈ elements v, P schema w
  carries : carriesAll → isObject v = true →
    ∀ p ∈ membersAt keywords "properties", p.1 ∈ (members v).map Prod.fst

/-- The rule of validity: a schema is `true`, or an object whose keywords hold. -/
inductive Rule (P : Json → Json → Prop) : Json → Json → Prop
  | always (v : Json) : Rule P (.bool true) v
  | keywords {keywords : Dict Str Json} {v : Json} (h : Keywords D carriesAll defs P keywords v) :
      Rule P (.obj keywords) v

variable {D carriesAll defs}

theorem Keywords.mono {P Q : Json → Json → Prop} (hPQ : P ≤ Q) {keywords : Dict Str Json} {v : Json}
    (h : Keywords D carriesAll defs P keywords v) : Keywords D carriesAll defs Q keywords v where
  type := h.type
  enum := h.enum
  const := h.const
  strings := h.strings
  ref := fun ref href => by
    obtain ⟨target, htarget, hv⟩ := h.ref ref href
    exact ⟨target, htarget, hPQ _ _ hv⟩
  anyOf := fun alts halts => by
    obtain ⟨schema, hmem, hv⟩ := h.anyOf alts halts
    exact ⟨schema, hmem, hPQ _ _ hv⟩
  properties := fun p hp w hw => hPQ _ _ (h.properties p hp w hw)
  additional := fun schema hschema m hm hnew => hPQ _ _ (h.additional schema hschema m hm hnew)
  required := h.required
  items := fun schema hschema w hw => hPQ _ _ (h.items schema hschema w hw)
  carries := h.carries

theorem rule_mono : Monotone (Rule D carriesAll defs) := by
  intro P Q hPQ schema v h
  cases h with
  | always => exact .always v
  | keywords h => exact .keywords (h.mono hPQ)

variable (D carriesAll defs)

/-- The rule as an operator on relations between schemas and values. -/
def ruleHom : (Json → Json → Prop) →o (Json → Json → Prop) := ⟨Rule D carriesAll defs, rule_mono⟩

/-- A value is valid for a schema whose references are resolved in `defs`. -/
def Valid : Json → Json → Prop := OrderHom.lfp (ruleHom D carriesAll defs)

/-- A value is valid for a schema that holds its own definitions. -/
def IsValid (schema v : Json) : Prop := Valid D False (definitions schema) schema v

/-- A value is valid for a schema, and each of its objects carries all the properties of the object
schema that validates it. -/
def IsValidCarryingAll (schema v : Json) : Prop := Valid D True (definitions schema) schema v

variable {D carriesAll defs}

/-- Validity is a solution of the rule. -/
theorem valid_obj_iff {keywords : Dict Str Json} {v : Json} :
    Valid D carriesAll defs (.obj keywords) v
      ↔ Keywords D carriesAll defs (Valid D carriesAll defs) keywords v := by
  have hfixed : Rule D carriesAll defs (Valid D carriesAll defs) = Valid D carriesAll defs :=
    OrderHom.map_lfp (ruleHom D carriesAll defs)
  constructor
  · intro h
    rw [← hfixed] at h
    cases h with
    | keywords h => exact h
  · intro h
    rw [← hfixed]
    exact .keywords h

/-- Validity is the least solution: what the rule preserves holds of every schema and its valid values. -/
theorem valid_induction {S : Json → Json → Prop}
    (hstep : ∀ keywords v, Keywords D carriesAll defs S keywords v → S (.obj keywords) v)
    (htrue : ∀ v, S (.bool true) v) {schema v : Json} (h : Valid D carriesAll defs schema v) :
    S schema v := by
  have hle : ruleHom D carriesAll defs S ≤ S := by
    intro schema v hrule
    cases hrule with
    | always => exact htrue v
    | keywords hv => exact hstep _ _ hv
  exact OrderHom.lfp_le _ hle schema v h

/-! ### Without the keywords on strings -/

/-- The keywords on strings. -/
def stringKeywords : List Str :=
  ["format".toList, "minLength".toList, "maxLength".toList, "pattern".toList]

mutual

/-- A schema without the keywords on strings, in it and in its subschemas and definitions. -/
def erase : Json → Json
  | .obj keywords => .obj (eraseKeywords keywords)
  | schema => schema

def eraseKeywords : List (Str × Json) → List (Str × Json)
  | [] => []
  | (keyword, value) :: keywords =>
    if stringKeywords.contains keyword then eraseKeywords keywords
    else
      (keyword, if keyword = "properties".toList ∨ keyword = "$defs".toList then eraseMembers value
        else if keyword = "anyOf".toList then eraseElements value
        else if keyword = "items".toList ∨ keyword = "additionalProperties".toList then erase value
        else value) :: eraseKeywords keywords

def eraseMembers : Json → Json
  | .obj fields => .obj (eraseFields fields)
  | value => value

def eraseElements : Json → Json
  | .arr items => .arr (eraseItems items)
  | value => value

def eraseFields : List (Str × Json) → List (Str × Json)
  | [] => []
  | (key, schema) :: fields => (key, erase schema) :: eraseFields fields

def eraseItems : List Json → List Json
  | [] => []
  | schema :: items => erase schema :: eraseItems items

end

theorem eraseFields_eq_map (fields : List (Str × Json)) :
    eraseFields fields = fields.map fun p => (p.1, erase p.2) := by
  induction fields with
  | nil => rfl
  | cons p fields ih =>
    obtain ⟨key, schema⟩ := p
    rw [eraseFields, ih, List.map_cons]

theorem eraseItems_eq_map (items : List Json) : eraseItems items = items.map erase := by
  induction items with
  | nil => rfl
  | cons schema items ih => rw [eraseItems, ih, List.map_cons]

/-- What becomes of the value under a keyword. -/
def eraseAt (keyword : Str) (value : Json) : Json :=
  if keyword = "properties".toList ∨ keyword = "$defs".toList then eraseMembers value
  else if keyword = "anyOf".toList then eraseElements value
  else if keyword = "items".toList ∨ keyword = "additionalProperties".toList then erase value
  else value

theorem get?_eraseKeywords (keywords : Dict Str Json) (keyword : Str) :
    Dict.get? (eraseKeywords keywords) keyword
      = if keyword ∈ stringKeywords then none else (keywords.get? keyword).map (eraseAt keyword) := by
  induction keywords with
  | nil => simp [eraseKeywords, Dict.get?_nil]
  | cons p keywords ih =>
    obtain ⟨k, value⟩ := p
    rw [eraseKeywords, Dict.get?_cons]
    by_cases hk : k ∈ stringKeywords
    · rw [if_pos (List.contains_iff_mem.mpr hk), ih]
      by_cases hkeyword : keyword ∈ stringKeywords
      · rw [if_pos hkeyword, if_pos hkeyword]
      · have hne : k ≠ keyword := fun he => hkeyword (he ▸ hk)
        rw [if_neg hkeyword, if_neg hkeyword, if_neg hne]
    · rw [if_neg (fun h => hk (List.contains_iff_mem.mp h)), Dict.get?_cons, ih]
      by_cases he : k = keyword
      · subst he
        rw [if_pos rfl, if_pos rfl, if_neg hk]
        rfl
      · rw [if_neg he, if_neg he]

theorem members_eraseMembers (value : Json) :
    members (eraseMembers value) = (members value).map fun p => (p.1, erase p.2) := by
  cases value with
  | obj fields => exact eraseFields_eq_map fields
  | null => rfl
  | bool b => rfl
  | int i => rfl
  | float repr => rfl
  | str s => rfl
  | arr items => rfl

theorem elements_eraseElements (value : Json) :
    elements (eraseElements value) = (elements value).map erase := by
  cases value with
  | arr items => exact eraseItems_eq_map items
  | null => rfl
  | bool b => rfl
  | int i => rfl
  | float repr => rfl
  | str s => rfl
  | obj fields => rfl

theorem keyword?_eraseKeywords (keywords : Dict Str Json) {name : String}
    (hname : name.toList ∉ stringKeywords) :
    keyword? (eraseKeywords keywords) name = (keyword? keywords name).map (eraseAt name.toList) := by
  rw [keyword?, get?_eraseKeywords, if_neg hname, keyword?]

/-- The keywords that are neither removed nor hold schemas. -/
theorem keyword?_eraseKeywords_same (keywords : Dict Str Json) {name : String}
    (hname : name.toList ∉ stringKeywords) (hsame : ∀ value, eraseAt name.toList value = value) :
    keyword? (eraseKeywords keywords) name = keyword? keywords name := by
  rw [keyword?_eraseKeywords keywords hname]
  cases keyword? keywords name with
  | none => rfl
  | some value => exact congrArg some (hsame value)

theorem membersAt_eraseKeywords (keywords : Dict Str Json) {name : String}
    (hname : name.toList ∉ stringKeywords) (hfields : name = "properties" ∨ name = "$defs") :
    membersAt (eraseKeywords keywords) name
      = (membersAt keywords name).map fun p => (p.1, erase p.2) := by
  have hat : ∀ value, eraseAt name.toList value = eraseMembers value := by
    intro value
    exact if_pos (hfields.imp (congrArg String.toList) (congrArg String.toList))
  rw [membersAt, membersAt, keyword?_eraseKeywords keywords hname]
  cases keyword? keywords name with
  | none => rfl
  | some value =>
    show members (eraseAt name.toList value) = _
    rw [hat, members_eraseMembers]
    rfl

/-- The definitions of an erased schema are the erased definitions. -/
theorem definitions_erase (schema : Json) :
    definitions (erase schema) = (definitions schema).map fun p => (p.1, erase p.2) := by
  cases schema with
  | obj keywords => exact membersAt_eraseKeywords keywords (by decide) (.inr rfl)
  | null => rfl
  | bool b => rfl
  | int i => rfl
  | float repr => rfl
  | str s => rfl
  | arr items => rfl

/-! ### The graph of references -/

/-- A reader at a schema goes on to the target of its reference, or into a subschema. -/
inductive Step (defs : Dict Str Json) : Json → Json → Prop
  | ref {node ref target : Json} (href : keyword? (members node) "$ref" = some ref)
      (htarget : resolve defs ref = some target) : Step defs node target
  | sub {node child : Json} (hchild : child ∈ subschemas node) : Step defs node child

/-- Round a cycle there are paths of any length. -/
theorem exists_chain_of_cycle {α : Type u} {r : α → α → Prop} {a : α} (hcycle : Relation.TransGen r a a)
    (n : Nat) (x : α) (hx : Relation.TransGen r x a) :
    ∃ path : List α, (x :: path).IsChain r ∧ path.length = n := by
  induction n generalizing x with
  | zero => exact ⟨[], List.isChain_singleton _, rfl⟩
  | succ n ih =>
    have hnext : ∃ y, r x y ∧ Relation.TransGen r y a := by
      rcases Relation.TransGen.head'_iff.mp hx with ⟨y, hxy, hya⟩
      rcases Relation.reflTransGen_iff_eq_or_transGen.mp hya with rfl | hya
      · exact ⟨_, hxy, hcycle⟩
      · exact ⟨y, hxy, hya⟩
    obtain ⟨y, hxy, hya⟩ := hnext
    obtain ⟨path, hchain, hlength⟩ := ih y hya
    exact ⟨y :: path, List.isChain_cons_cons.mpr ⟨hxy, hchain⟩, congrArg Nat.succ hlength⟩

/-- A container: an object or an array. -/
def isContainer (node : Json) : Bool :=
  (keyword? (members node) "type").any fun kind => isText "object" kind || isText "array" kind

end Polymind.JsonSchema
