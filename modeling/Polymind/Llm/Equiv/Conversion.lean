import Polymind.Llm.AzureSchema

/-!
# What the conversion of a schema gives

`convertNode` is a sequence of stages that each set a few keywords.  `convertNode_ok` says what the
stages make of a node, as the structure `Converted`, from which the schemas below the node are reached
by `Converts`; `convert_self` says that a converted schema is converted to itself.
-/

namespace Polymind.Llm.AzureSchema

open Json JsonSchema

/-! ### What a stage of the conversion changes -/

/-- A stage changes what is found under some keywords only, and settles it. -/
structure Stage (names : List String) (out out' : Dict Str Json) : Prop where
  frame : ∀ key, named names key = false → out'.get? key = out.get? key
  settled : ∀ key, out.Settled key → out'.Settled key
  fresh : ∀ name ∈ names, out'.Settled name.toList

namespace Stage

variable {names : List String} {out out' out'' : Dict Str Json}

theorem refl (h : ∀ name ∈ names, keyword? out name = none) : Stage names out out where
  frame := fun _ _ => rfl
  settled := fun _ hkey => hkey
  fresh := fun name hname => .of_get?_eq_none (h name hname)

theorem set (out : Dict Str Json) (name : String) (value : Json) :
    Stage [name] out (Dict.set out name.toList value) where
  frame := fun key hkey => by
    rw [Dict.get?_set, if_neg]
    rintro rfl
    simp [named] at hkey
  settled := fun key hkey => hkey.set _ _
  fresh := fun other hother => by
    rw [List.mem_singleton.mp hother]
    exact Dict.settled_set _ _ _

theorem trans {more : List String} (h : Stage names out out') (h' : Stage more out' out'') :
    Stage (names ++ more) out out'' where
  frame := fun key hkey => by
    rw [named, List.any_append, Bool.or_eq_false_iff] at hkey
    rw [h'.frame key hkey.2, h.frame key hkey.1]
  settled := fun key hkey => h'.settled key (h.settled key hkey)
  fresh := fun name hname => by
    rcases List.mem_append.mp hname with hname | hname
    · exact h'.settled _ (h.fresh name hname)
    · exact h'.fresh name hname

theorem keyword?_eq (h : Stage names out out') {name : String} (hname : named names name.toList = false) :
    keyword? out' name = keyword? out name :=
  h.frame _ hname

end Stage

/-- What is found under a keyword that was set. -/
theorem keyword?_set (out : Dict Str Json) (name : String) (value : Json) :
    keyword? (Dict.set out name.toList value) name = some value := by
  rw [keyword?, Dict.get?_set, if_pos rfl]

theorem keyword?_set_ne (out : Dict Str Json) {name other : String} (hne : named [name] other.toList = false)
    (value : Json) : keyword? (Dict.set out name.toList value) other = keyword? out other :=
  (Stage.set out name value).keyword?_eq hne

theorem has_iff {node : Dict Str Json} {name : String} : has node name = true ↔ keyword? node name ≠ none := by
  rw [has, Option.isSome_iff_ne_none]

theorem has_eq_false {node : Dict Str Json} {name : String} :
    has node name = false ↔ keyword? node name = none := by
  rw [has, Option.isSome_eq_false_iff, Option.isNone_iff_eq_none]

/-! ### Stages -/

/-- Items that were converted one by one. -/
def Items (R : Json → Json → Prop) (value value' : Json) : Prop :=
  ∃ l m, value = .arr l ∧ value' = .arr m ∧ List.Forall₂ R l m

/-- Members that were converted one by one, under their keys. -/
def Fields (R : Json → Json → Prop) (value value' : Json) : Prop :=
  ∃ l m, value = .obj l ∧ value' = .obj m ∧ List.Forall₂ (fun p q => p.1 = q.1 ∧ R p.2 q.2) l m

variable {recur : Json → Except SchemaFault Json} {root : Bool} {kind : Option Json}
  {out out' : Dict Str Json}

theorem convertFields_ok {fields converted : Dict Str Json} (h : convertFields recur fields = .ok converted) :
    List.Forall₂ (fun p q => p.1 = q.1 ∧ recur p.2 = .ok q.2) fields converted := by
  refine (mapM_eq_ok.mp h).imp fun p q hpq => ?_
  obtain ⟨schema, hschema, rfl⟩ := map_eq_ok.mp hpq
  exact ⟨rfl, hschema⟩

theorem convertFields_of_forall₂ {fields converted : Dict Str Json}
    (h : List.Forall₂ (fun p q => p.1 = q.1 ∧ recur p.2 = .ok q.2) fields converted) :
    convertFields recur fields = .ok converted := by
  refine mapM_eq_ok.mpr (h.imp fun p q hpq => ?_)
  rw [hpq.2]
  exact congrArg Except.ok (Prod.ext hpq.1 rfl)

/-- A keyword stands alone. -/
def Alone (name : String) (out : Dict Str Json) : Prop := ∀ key, key ≠ name.toList → out.get? key = none

/-- The forms of a schema: a reference, a union, or one with a type. -/
inductive Shape (root : Bool) (out : Dict Str Json) : Prop
  | ref {s : Str} (halone : Alone "$ref" out) (href : keyword? out "$ref" = some (.str s))
  | union {alts : List Json} (hroot : root = false) (halone : Alone "anyOf" out)
      (halts : keyword? out "anyOf" = some (.arr alts)) (hne : alts ≠ [])
  | typed (href : keyword? out "$ref" = none) (hanyOf : keyword? out "anyOf" = none)
      (hkind : kinds.any (is (keyword? out "type")) = true)

theorem unless_eq_ok {α : Type} {c : Prop} [Decidable c] {x : Except SchemaFault α} {a : α} :
    (if c then fail else x) = .ok a ↔ ¬c ∧ x = .ok a := ite_error_eq_ok

theorem when_eq_ok {α : Type} {c : Prop} [Decidable c] {x : Except SchemaFault α} {a : α} :
    (if c then x else fail) = .ok a ↔ c ∧ x = .ok a := by
  by_cases hc : c <;> simp [hc, fail]

theorem constToEnum_ok (h : constToEnum out = .ok out') :
    (∀ key, named ["const", "enum"] key = false → out'.get? key = out.get? key)
      ∧ keyword? out' "const" = none
      ∧ (keyword? out "const" = none ∧ keyword? out' "enum" = keyword? out "enum"
        ∨ keyword? out "enum" = none
          ∧ ∃ value, keyword? out "const" = some value ∧ keyword? out' "enum" = some (.arr [value])) := by
  unfold constToEnum at h
  cases hconst : keyword? out "const" with
  | none =>
    rw [hconst] at h
    rw [← Except.ok.inj h]
    exact ⟨fun _ _ => rfl, hconst, .inl ⟨rfl, rfl⟩⟩
  | some value =>
    rw [hconst] at h
    obtain ⟨henum, h⟩ := unless_eq_ok.mp h
    rw [← Except.ok.inj h]
    refine ⟨fun key hkey => ?_, ?_, .inr ⟨has_eq_false.mp (Bool.not_eq_true _ ▸ henum), value, rfl, ?_⟩⟩
    · simp only [named, List.any_cons, List.any_nil, Bool.or_false, Bool.or_eq_false_iff,
        decide_eq_false_iff_not] at hkey
      rw [Dict.get?_set, if_neg hkey.2, Dict.get?_filter_ne, if_neg (Ne.symm hkey.1)]
    · rw [keyword?_set_ne _ (by decide), keyword?, Dict.get?_filter_ne, if_pos rfl]
    · exact keyword?_set _ _ _

theorem alone_iff {name : String} : Alone name out ↔ ∀ p ∈ out, p.1 = name.toList := by
  constructor
  · intro h p hp
    by_contra hne
    exact Dict.get?_eq_none.mp (h p.1 hne) (List.mem_map_of_mem hp)
  · intro h key hne
    refine Dict.get?_eq_none.mpr fun hmem => ?_
    obtain ⟨p, hp, rfl⟩ := List.mem_map.mp hmem
    exact hne (h p hp)

theorem elementsAt_ne_nil {name : String} (h : elementsAt out name ≠ []) :
    keyword? out name = some (.arr (elementsAt out name)) := by
  unfold elementsAt at h ⊢
  cases hvalue : keyword? out name with
  | none =>
    rw [hvalue] at h
    exact absurd rfl h
  | some value =>
    rw [hvalue] at h
    cases value with
    | arr items => rfl
    | null => exact absurd rfl h
    | bool b => exact absurd rfl h
    | int i => exact absurd rfl h
    | float repr => exact absurd rfl h
    | str s => exact absurd rfl h
    | obj fields => exact absurd rfl h

theorem convertShape_ok (h : convertShape recur root (keyword? out "type") out = .ok out') :
    Stage ["anyOf"] out out' ∧ Shape root out'
      ∧ Option.Rel (Items fun a b => recur a = .ok b) (keyword? out "anyOf") (keyword? out' "anyOf") := by
  unfold convertShape at h
  by_cases href : has out "$ref" = true
  · -- a reference
    rw [if_pos href, when_eq_ok, Bool.and_eq_true, List.all_eq_true] at h
    obtain ⟨⟨halone, hstring⟩, h⟩ := h
    obtain rfl := Except.ok.inj h
    have halone : Alone "$ref" out := alone_iff.mpr fun p hp => of_decide_eq_true (halone p hp)
    have hanyOf : keyword? out "anyOf" = none := halone _ (by decide)
    obtain ⟨ref, hfound, hstring⟩ := (Option.any_eq_true _ _).mp hstring
    refine ⟨.refl fun name hname => ?_, ?_, ?_⟩
    · rw [List.mem_singleton.mp hname]
      exact hanyOf
    · cases ref with
      | str s => exact .ref halone hfound
      | null => cases hstring
      | bool b => cases hstring
      | int i => cases hstring
      | float repr => cases hstring
      | arr items => cases hstring
      | obj fields => cases hstring
    · rw [hanyOf]
      exact .none
  rw [if_neg href] at h
  have href : keyword? out "$ref" = none := has_eq_false.mp (Bool.not_eq_true _ ▸ href)
  by_cases hanyOf : has out "anyOf" = true
  · -- a union
    rw [if_pos hanyOf, when_eq_ok, Bool.and_eq_true, Bool.and_eq_true, List.all_eq_true] at h
    obtain ⟨⟨⟨hroot, halone⟩, hne⟩, h⟩ := h
    obtain ⟨alts, halts, h⟩ := bind_eq_ok.mp h
    obtain rfl := Except.ok.inj h
    have hrel := mapM_eq_ok.mp halts
    have hne : elementsAt out "anyOf" ≠ [] := by simpa using hne
    refine ⟨.set _ _ _, .union (by simpa using hroot) (alone_iff.mpr ?_) (keyword?_set _ _ (.arr alts)) ?_, ?_⟩
    · intro p hp
      rcases Dict.mem_set hp with rfl | ⟨-, hp⟩
      · rfl
      · exact of_decide_eq_true (halone p hp)
    · rintro rfl
      exact hne (List.forall₂_nil_right_iff.mp hrel)
    · rw [elementsAt_ne_nil hne, keyword?_set]
      exact .some ⟨_, _, rfl, rfl, hrel⟩
  · -- a type
    rw [if_neg hanyOf, when_eq_ok] at h
    have hanyOf : keyword? out "anyOf" = none := has_eq_false.mp (Bool.not_eq_true _ ▸ hanyOf)
    obtain ⟨hkind, h⟩ := h
    obtain rfl := Except.ok.inj h
    refine ⟨.refl fun name hname => ?_, .typed href hanyOf hkind, ?_⟩
    · rw [List.mem_singleton.mp hname]
      exact hanyOf
    · rw [hanyOf]
      exact .none

theorem isFalse_iff {value : Json} : isFalse value = true ↔ value = .bool false := by
  cases value with
  | bool b => cases b <;> simp [isFalse]
  | null => simp [isFalse]
  | int i => simp [isFalse]
  | float repr => simp [isFalse]
  | str s => simp [isFalse]
  | arr items => simp [isFalse]
  | obj fields => simp [isFalse]

/-- An object has closed properties, all of them required; nothing else has properties. -/
def Closed (kind : Option Json) (out : Dict Str Json) : Prop :=
  if is kind "object" = true then
    ∃ props, keyword? out "properties" = some (.obj props)
      ∧ keyword? out "additionalProperties" = some (.bool false)
      ∧ keyword? out "required" = some (.arr (props.map fun p => .str p.1))
  else keyword? out "properties" = none ∧ keyword? out "required" = none
    ∧ keyword? out "additionalProperties" = none

theorem convertObject_ok (h : convertObject recur kind out = .ok out') :
    Stage ["properties", "required"] out out' ∧ Closed kind out'
      ∧ Option.Rel (Fields fun a b => recur a = .ok b) (keyword? out "properties") (keyword? out' "properties")
      ∧ requires (membersAt out "properties") (keyword? out "required") = true := by
  unfold convertObject at h
  unfold Closed
  by_cases hkind : is kind "object" = true
  · rw [if_pos hkind] at h ⊢
    cases hprops : keyword? out "properties" with
    | none =>
      rw [hprops] at h
      cases h
    | some value =>
      rw [hprops] at h
      cases value with
      | obj props =>
        dsimp only at h
        rw [when_eq_ok, Bool.and_eq_true] at h
        obtain ⟨⟨hfalse, hrequires⟩, h⟩ := h
        obtain ⟨converted, hconverted, h⟩ := bind_eq_ok.mp h
        obtain rfl := Except.ok.inj h
        have hrel := convertFields_ok hconverted
        have hkeys : props.map (fun p => Json.str p.1) = converted.map fun p => Json.str p.1 :=
          map_eq_of_forall₂ hrel fun p q hpq => congrArg Json.str hpq.1
        refine ⟨(Stage.set _ _ _).trans (.set _ _ _), ⟨converted, ?_, ?_, ?_⟩, ?_, ?_⟩
        · rw [keyword?_set_ne _ (by decide), keyword?_set]
        · rw [keyword?_set_ne _ (by decide), keyword?_set_ne _ (by decide)]
          obtain ⟨value, hvalue, hfalse⟩ := (Option.any_eq_true _ _).mp hfalse
          rw [hvalue, isFalse_iff.mp hfalse]
        · rw [keyword?_set, hkeys]
        · rw [keyword?_set_ne _ (by decide), keyword?_set]
          exact .some ⟨_, _, rfl, rfl, hrel⟩
        · rw [membersAt, hprops]
          exact hrequires
      | null => cases h
      | bool b => cases h
      | int i => cases h
      | float repr => cases h
      | str s => cases h
      | arr items => cases h
  · rw [if_neg hkind] at h ⊢
    obtain ⟨hnone, h⟩ := unless_eq_ok.mp h
    obtain rfl := Except.ok.inj h
    simp only [List.any_cons, List.any_nil, Bool.or_false, Bool.or_eq_true, not_or, Bool.not_eq_true,
      has_eq_false] at hnone
    obtain ⟨hprops, hrequired, hadditional⟩ := hnone
    refine ⟨.refl fun name hname => ?_, ⟨hprops, hrequired, hadditional⟩, ?_, ?_⟩
    · rcases List.mem_cons.mp hname with rfl | hname
      · exact hprops
      · rw [List.mem_singleton.mp hname]
        exact hrequired
    · rw [hprops]
      exact .none
    · rw [hrequired]
      rfl

theorem convertArray_ok (h : convertArray recur kind out = .ok out') :
    Stage ["items"] out out' ∧ (is kind "array" = has out' "items")
      ∧ Option.Rel (fun a b => recur a = .ok b) (keyword? out "items") (keyword? out' "items") := by
  unfold convertArray at h
  by_cases hkind : is kind "array" = true
  · rw [if_pos hkind] at h
    cases hitems : keyword? out "items" with
    | none =>
      rw [hitems] at h
      cases h
    | some items =>
      rw [hitems] at h
      obtain ⟨converted, hconverted, h⟩ := bind_eq_ok.mp h
      obtain rfl := Except.ok.inj h
      refine ⟨.set _ _ _, ?_, ?_⟩
      · rw [hkind, has, keyword?_set]
        rfl
      · rw [keyword?_set]
        exact .some hconverted
  · rw [if_neg hkind] at h
    obtain ⟨hnone, h⟩ := unless_eq_ok.mp h
    obtain rfl := Except.ok.inj h
    have hnone : has out "items" = false := Bool.not_eq_true _ ▸ hnone
    refine ⟨.refl fun name hname => ?_, ?_, ?_⟩
    · rw [List.mem_singleton.mp hname]
      exact has_eq_false.mp hnone
    · rw [hnone]
      exact Bool.not_eq_true _ ▸ hkind
    · rw [has_eq_false.mp hnone]
      exact .none

theorem convertDefs_ok (h : convertDefs recur root out = .ok out') :
    Stage ["$defs"] out out' ∧ (has out' "$defs" = true → root = true)
      ∧ Option.Rel (Fields fun a b => recur a = .ok b) (keyword? out "$defs") (keyword? out' "$defs") := by
  unfold convertDefs at h
  cases hdefs : keyword? out "$defs" with
  | none =>
    rw [hdefs] at h
    obtain rfl := Except.ok.inj h
    refine ⟨.refl fun name hname => ?_, fun hhas => absurd hdefs (has_iff.mp hhas), ?_⟩
    · rw [List.mem_singleton.mp hname]
      exact hdefs
    · rw [hdefs]
      exact .none
  | some value =>
    rw [hdefs] at h
    cases value with
    | obj defs =>
      dsimp only at h
      obtain ⟨hroot, h⟩ := when_eq_ok.mp h
      obtain ⟨converted, hconverted, h⟩ := bind_eq_ok.mp h
      obtain rfl := Except.ok.inj h
      refine ⟨.set _ _ _, fun _ => hroot, ?_⟩
      rw [keyword?_set]
      exact .some ⟨_, _, rfl, rfl, convertFields_ok hconverted⟩
    | null => cases h
    | bool b => cases h
    | int i => cases h
    | float repr => cases h
    | str s => cases h
    | arr items => cases h

theorem convertEnum_ok (h : convertEnum kind out = .ok out') :
    Stage ["enum"] out out' ∧ keyword? out' "enum" = keyword? out "enum"
      ∧ ∀ value, keyword? out "enum" = some value →
        ∃ values, value = .arr values ∧ values ≠ [] ∧ values.all (isInstance kind) = true := by
  unfold convertEnum at h
  cases henum : keyword? out "enum" with
  | none =>
    rw [henum] at h
    obtain rfl := Except.ok.inj h
    refine ⟨.refl fun name hname => ?_, henum, fun value hvalue => ?_⟩
    · rw [List.mem_singleton.mp hname]
      exact henum
    · cases hvalue
  | some value =>
    rw [henum] at h
    cases value with
    | arr values =>
      dsimp only at h
      rw [when_eq_ok, Bool.and_eq_true] at h
      obtain ⟨⟨hne, hall⟩, h⟩ := h
      obtain rfl := Except.ok.inj h
      refine ⟨.set _ _ _, keyword?_set _ _ _, fun value hvalue => ?_⟩
      obtain rfl := Option.some.inj hvalue
      exact ⟨values, rfl, by simpa using hne, hall⟩
    | null => cases h
    | bool b => cases h
    | int i => cases h
    | float repr => cases h
    | str s => cases h
    | obj fields => cases h

/-! ### One node -/

/-- What the conversion of a node's keywords gives, `R` relating the schemas below it to theirs. -/
structure Converted (R : Json → Json → Prop) (root : Bool) (node out : Dict Str Json) : Prop where
  keys : ∀ key, out.get? key ≠ none →
    named allowed key = true ∧ named dropped key = false ∧ key ≠ "const".toList
  type : keyword? out "type" = keyword? node "type"
  ref : keyword? out "$ref" = keyword? node "$ref"
  additional : keyword? out "additionalProperties" = keyword? node "additionalProperties"
  enum : keyword? node "const" = none ∧ keyword? out "enum" = keyword? node "enum"
    ∨ keyword? node "enum" = none
      ∧ ∃ value, keyword? node "const" = some value ∧ keyword? out "enum" = some (.arr [value])
  anyOf : Option.Rel (Items R) (keyword? node "anyOf") (keyword? out "anyOf")
  properties : Option.Rel (Fields R) (keyword? node "properties") (keyword? out "properties")
  items : Option.Rel R (keyword? node "items") (keyword? out "items")
  defs : Option.Rel (Fields R) (keyword? node "$defs") (keyword? out "$defs")
  requires : requires (membersAt node "properties") (keyword? node "required") = true
  shape : Shape root out
  closed : Closed (keyword? out "type") out
  array : is (keyword? out "type") "array" = has out "items"
  rootObject : root = true → is (keyword? out "type") "object" = true
  rootDefs : has out "$defs" = true → root = true
  values : ∀ value, keyword? out "enum" = some value →
    ∃ values, value = .arr values ∧ values ≠ [] ∧ values.all (isInstance (keyword? out "type")) = true
  settled : ∀ name ∈ ["anyOf", "properties", "required", "items", "$defs", "enum"], out.Settled name.toList

theorem rel_cases {R : Json → Json → Prop} {o o' : Option Json} (h : Option.Rel R o o') :
    o = none ∧ o' = none ∨ ∃ value value', o = some value ∧ o' = some value' ∧ R value value' := by
  cases h with
  | none => exact .inl ⟨rfl, rfl⟩
  | some h => exact .inr ⟨_, _, rfl, rfl, h⟩

theorem rel_none {R : Json → Json → Prop} {o : Option Json} (h : Option.Rel R none o) : o = none := by
  rcases rel_cases h with ⟨-, hnone⟩ | ⟨_, _, hsome, -⟩
  · exact hnone
  · cases hsome

/-- A reference and a union have no type, so that the stages after them add nothing. -/
theorem Shape.mono (h : Shape root out) (hframe : Stage ["properties", "required", "items", "$defs", "enum"] out out')
    (hadds : keyword? out "type" = none →
      ∀ name ∈ ["properties", "required", "items", "$defs", "enum"], keyword? out name = none →
        keyword? out' name = none) : Shape root out' := by
  have halone : ∀ name, Alone name out → named ["type"] name.toList = false → Alone name out' := by
    intro name halone hname key hne
    by_cases hkey : named ["properties", "required", "items", "$defs", "enum"] key = true
    · obtain ⟨other, hother, heq⟩ := List.any_eq_true.mp hkey
      rw [of_decide_eq_true heq]
      refine hadds (halone _ fun he => ?_) other hother (halone _ fun he => hne ?_)
      · simp [named, ← he] at hname
      · rw [of_decide_eq_true heq, he]
    · rw [hframe.frame key (Bool.not_eq_true _ ▸ hkey)]
      exact halone key hne
  cases h with
  | ref hal href =>
    exact .ref (halone _ hal (by decide)) ((hframe.keyword?_eq (by decide)).trans href)
  | union hroot hal halts hne =>
    exact .union hroot (halone _ hal (by decide)) ((hframe.keyword?_eq (by decide)).trans halts) hne
  | typed href hanyOf hkind =>
    refine .typed ?_ ?_ ?_
    · rw [hframe.keyword?_eq (by decide), href]
    · rw [hframe.keyword?_eq (by decide), hanyOf]
    · rw [hframe.keyword?_eq (by decide)]
      exact hkind

theorem convertNode_ok {node : Dict Str Json} (h : convertNode recur root node = .ok out) :
    Converted (fun a b => recur a = .ok b) root node out := by
  unfold convertNode at h
  obtain ⟨hadmitted, h⟩ := when_eq_ok.mp h
  obtain ⟨out₀, h₀, h⟩ := bind_eq_ok.mp h
  dsimp only at h
  obtain ⟨hroot, h⟩ := unless_eq_ok.mp h
  obtain ⟨out₁, h₁, h⟩ := bind_eq_ok.mp h
  obtain ⟨out₂, h₂, h⟩ := bind_eq_ok.mp h
  obtain ⟨out₃, h₃, h⟩ := bind_eq_ok.mp h
  obtain ⟨out₄, h₄, h⟩ := bind_eq_ok.mp h
  obtain ⟨hframe₀, hconst, henum⟩ := constToEnum_ok h₀
  obtain ⟨hstage₁, hshape, hanyOf⟩ := convertShape_ok h₁
  obtain ⟨hstage₂, hclosed, hproperties, hrequires⟩ := convertObject_ok h₂
  obtain ⟨hstage₃, harray, hitems⟩ := convertArray_ok h₃
  obtain ⟨hstage₄, hrootDefs, hdefs⟩ := convertDefs_ok h₄
  obtain ⟨hstage₅, hsame, hvalues⟩ := convertEnum_ok h
  -- what the filter keeps, and what the later stages leave alone
  have hfiltered : ∀ name, named dropped name.toList = false →
      keyword? (node.filter fun p => !named dropped p.1) name = keyword? node name := by
    intro name hname
    rw [keyword?, Dict.get?_filter_key (fun key => !named dropped key), hname]
    rfl
  have hkeep : ∀ name, named dropped name.toList = false →
      named ["const", "enum"] name.toList = false → keyword? out₀ name = keyword? node name := by
    intro name hname hnew
    rw [← hfiltered name hname]
    exact hframe₀ _ hnew
  have hrest₃ : Stage ["items", "$defs", "enum"] out₂ out := (hstage₃.trans hstage₄).trans hstage₅
  have hrest₄ : Stage ["$defs", "enum"] out₃ out := hstage₄.trans hstage₅
  have hlater : Stage ["properties", "required", "items", "$defs", "enum"] out₁ out := hstage₂.trans hrest₃
  have hall : Stage ["anyOf", "properties", "required", "items", "$defs", "enum"] out₀ out :=
    hstage₁.trans hlater
  have htype : keyword? out "type" = keyword? out₀ "type" := hall.keyword?_eq (by decide)
  have hclosed' : Closed (keyword? out "type") out := by
    unfold Closed at hclosed ⊢
    rw [htype, hrest₃.keyword?_eq (by decide), hrest₃.keyword?_eq (by decide),
      hrest₃.keyword?_eq (by decide)]
    exact hclosed
  have harray' : is (keyword? out "type") "array" = has out "items" := by
    rw [htype, harray, has, has, hrest₄.keyword?_eq (by decide)]
  have henum₀ : keyword? out "enum" = keyword? out₀ "enum" := by
    rw [hsame, hstage₄.keyword?_eq (by decide), hstage₃.keyword?_eq (by decide),
      hstage₂.keyword?_eq (by decide), hstage₁.keyword?_eq (by decide)]
  have hdefs' : Option.Rel (Fields fun a b => recur a = .ok b) (keyword? out₁ "$defs") (keyword? out "$defs") := by
    rw [hstage₅.keyword?_eq (by decide), ← hstage₂.keyword?_eq (by decide),
      ← hstage₃.keyword?_eq (by decide)]
    exact hdefs
  have hknown : ∀ name ∈ ["anyOf", "properties", "required", "items", "$defs", "enum"],
      named allowed name.toList = true ∧ named dropped name.toList = false
        ∧ name.toList ≠ "const".toList := by decide
  refine
    { keys := ?_, type := ?_, ref := ?_, additional := ?_, enum := ?_, anyOf := ?_, properties := ?_
      items := ?_, defs := ?_, requires := ?_, shape := ?_, closed := hclosed', array := harray'
      rootObject := ?_, rootDefs := ?_, values := ?_, settled := hall.fresh }
  · intro key hkey
    by_cases hnew : named ["anyOf", "properties", "required", "items", "$defs", "enum"] key = true
    · obtain ⟨name, hname, heq⟩ := List.any_eq_true.mp hnew
      rw [of_decide_eq_true heq]
      exact hknown name hname
    · rw [hall.frame key (Bool.not_eq_true _ ▸ hnew)] at hkey
      have hne : key ≠ "const".toList := by
        rintro rfl
        exact hkey hconst
      have henum : key ≠ "enum".toList := by
        rintro rfl
        exact hnew (by decide)
      have hnew : named ["const", "enum"] key = false := by
        simp only [named, List.any_cons, List.any_nil, hne, henum, decide_false, Bool.or_self]
      rw [hframe₀ key hnew, Dict.get?_filter_key (fun key => !named dropped key)] at hkey
      cases hdropped : named dropped key with
      | true =>
        rw [hdropped] at hkey
        exact absurd rfl hkey
      | false =>
        rw [hdropped] at hkey
        obtain ⟨value, hvalue⟩ := Option.ne_none_iff_exists'.mp hkey
        have hmem := Dict.mem_of_get? hvalue
        rw [admitted, Bool.and_eq_true, List.all_eq_true] at hadmitted
        exact ⟨hadmitted.1 _ hmem, rfl, hne⟩
  · rw [htype, hkeep _ (by decide) (by decide)]
  · rw [hall.keyword?_eq (by decide), hkeep _ (by decide) (by decide)]
  · rw [hall.keyword?_eq (by decide), hkeep _ (by decide) (by decide)]
  · rw [henum₀, ← hfiltered "const" (by decide), ← hfiltered "enum" (by decide)]
    exact henum
  · rw [hlater.keyword?_eq (by decide), ← hkeep _ (by decide) (by decide)]
    exact hanyOf
  · rw [hrest₃.keyword?_eq (by decide), ← hkeep _ (by decide) (by decide),
      ← hstage₁.keyword?_eq (by decide)]
    exact hproperties
  · rw [hrest₄.keyword?_eq (by decide), ← hkeep _ (by decide) (by decide),
      ← hstage₁.keyword?_eq (by decide), ← hstage₂.keyword?_eq (by decide)]
    exact hitems
  · rw [← hkeep _ (by decide) (by decide), ← hstage₁.keyword?_eq (by decide)]
    exact hdefs'
  · rw [membersAt, ← hkeep "properties" (by decide) (by decide), ← hkeep "required" (by decide) (by decide),
      ← hstage₁.keyword?_eq (by decide), ← hstage₁.keyword?_eq (by decide)]
    exact hrequires
  · refine hshape.mono hlater fun hnone name hname habsent => ?_
    have hnone : keyword? out "type" = none := (hlater.keyword?_eq (by decide)).trans hnone
    rw [hnone] at hclosed' harray'
    simp only [List.mem_cons, List.not_mem_nil, or_false] at hname
    rcases hname with rfl | rfl | rfl | rfl | rfl
    · exact hclosed'.1
    · exact hclosed'.2.1
    · exact has_eq_false.mp harray'.symm
    · rw [habsent] at hdefs'
      exact rel_none hdefs'
    · rw [henum₀, ← hstage₁.keyword?_eq (by decide), habsent]
  · intro hroot'
    rw [htype]
    simpa [hroot'] using hroot
  · intro hhas
    refine hrootDefs ?_
    rw [has, hstage₅.keyword?_eq (by decide)] at hhas
    exact hhas
  · intro value hvalue
    rw [htype]
    exact hvalues value (hsame ▸ hvalue)

/-! ### Schemas and their conversions -/

/-- A schema is converted, at the root or below it. -/
def Converts (node out : Json) : Prop := ∃ rounds root, convert rounds root node = .ok out

theorem convert_ok {rounds : Nat} {schema result : Json} (h : convert (rounds + 1) root schema = .ok result) :
    ∃ node out, schema = .obj node ∧ result = .obj out
      ∧ Converted (fun a b => convert rounds false a = .ok b) root node out := by
  cases schema with
  | obj node =>
    obtain ⟨out, hout, rfl⟩ := map_eq_ok.mp h
    exact ⟨node, out, rfl, rfl, convertNode_ok hout⟩
  | null => cases h
  | bool b => cases h
  | int i => cases h
  | float repr => cases h
  | str s => cases h
  | arr items => cases h

theorem Items.mono {R R' : Json → Json → Prop} (hR : ∀ a b, R a b → R' a b) {value value' : Json}
    (h : Items R value value') : Items R' value value' := by
  obtain ⟨l, m, hl, hm, hrel⟩ := h
  exact ⟨l, m, hl, hm, hrel.imp hR⟩

theorem Fields.mono {R R' : Json → Json → Prop} (hR : ∀ a b, R a b → R' a b) {value value' : Json}
    (h : Fields R value value') : Fields R' value value' := by
  obtain ⟨l, m, hl, hm, hrel⟩ := h
  exact ⟨l, m, hl, hm, hrel.imp fun p q hpq => ⟨hpq.1, hR _ _ hpq.2⟩⟩

theorem rel_mono {R R' : Json → Json → Prop} (hR : ∀ a b, R a b → R' a b) {o o' : Option Json}
    (h : Option.Rel R o o') : Option.Rel R' o o' := by
  cases h with
  | none => exact .none
  | some h => exact .some (hR _ _ h)

theorem forall₂_and_right {α β : Type} {R : α → β → Prop} {P : β → Prop} {l : List α} {m : List β}
    (h : List.Forall₂ R l m) (hP : ∀ b ∈ m, P b) : List.Forall₂ (fun a b => R a b ∧ P b) l m := by
  have hflip := (List.forall₂_and_left _ _).mpr ⟨hP, h.flip⟩
  exact hflip.flip.imp fun a b hab => ⟨hab.2, hab.1⟩

namespace Converted

variable {R R' : Json → Json → Prop} {node : Dict Str Json}

theorem mono (hR : ∀ a b, R a b → R' a b) (h : Converted R root node out) :
    Converted R' root node out :=
  { h with
    anyOf := rel_mono (fun _ _ => Items.mono hR) h.anyOf
    properties := rel_mono (fun _ _ => Fields.mono hR) h.properties
    items := rel_mono hR h.items
    defs := rel_mono (fun _ _ => Fields.mono hR) h.defs }

theorem membersAt_rel {name : String} (h : Option.Rel (Fields R) (keyword? node name) (keyword? out name)) :
    List.Forall₂ (fun p q => p.1 = q.1 ∧ R p.2 q.2) (membersAt node name) (membersAt out name) := by
  unfold membersAt
  rcases rel_cases h with ⟨hnode, hout⟩ | ⟨_, _, hnode, hout, l, m, rfl, rfl, hrel⟩
  · rw [hnode, hout]
    exact .nil
  · rw [hnode, hout]
    exact hrel

theorem elementsAt_rel {name : String} (h : Option.Rel (Items R) (keyword? node name) (keyword? out name)) :
    List.Forall₂ R (elementsAt node name) (elementsAt out name) := by
  unfold elementsAt
  rcases rel_cases h with ⟨hnode, hout⟩ | ⟨_, _, hnode, hout, l, m, rfl, rfl, hrel⟩
  · rw [hnode, hout]
    exact .nil
  · rw [hnode, hout]
    exact hrel

/-- What holds of all the schemas below the result may be added to the relation. -/
theorem and {P : Json → Prop} (h : Converted R root node out)
    (hP : ∀ b ∈ subschemas (.obj out) ++ (definitions (.obj out)).map Prod.snd, P b) :
    Converted (fun a b => R a b ∧ P b) root node out := by
  have hfields : ∀ name, (∀ q ∈ membersAt out name, P q.2) →
      Option.Rel (Fields R) (keyword? node name) (keyword? out name) →
      Option.Rel (Fields fun a b => R a b ∧ P b) (keyword? node name) (keyword? out name) := by
    intro name hmem hrel
    unfold membersAt at hmem
    rcases rel_cases hrel with ⟨hnode, hout⟩ | ⟨_, _, hnode, hout, l, m, rfl, rfl, hlm⟩
    · rw [hnode, hout]
      exact .none
    · rw [hout] at hmem
      rw [hnode, hout]
      exact .some ⟨l, m, rfl, rfl, (forall₂_and_right hlm hmem).imp fun p q hpq => ⟨hpq.1.1, hpq.1.2, hpq.2⟩⟩
  simp only [subschemas, List.mem_append, List.mem_map, Option.mem_toList, members] at hP
  refine
    { h with
      anyOf := ?_
      properties := hfields _ (fun q hq => hP q.2 (.inl (.inl (.inl ⟨q, hq, rfl⟩)))) h.properties
      items := ?_
      defs := hfields _ (fun q hq => hP q.2 (.inr ⟨q, hq, rfl⟩)) h.defs }
  · rcases rel_cases h.anyOf with ⟨hnode, hout⟩ | ⟨_, _, hnode, hout, l, m, rfl, rfl, hlm⟩
    · rw [hnode, hout]
      exact .none
    · have hm : elementsAt out "anyOf" = m := by
        rw [elementsAt, hout]
        rfl
      rw [hnode, hout]
      exact .some ⟨l, m, rfl, rfl, forall₂_and_right hlm fun b hb => hP b (.inl (.inl (.inr (hm ▸ hb))))⟩
  · rcases rel_cases h.items with ⟨hnode, hout⟩ | ⟨value, value', hnode, hout, hR⟩
    · rw [hnode, hout]
      exact .none
    · rw [hnode, hout]
      exact .some ⟨hR, hP _ (.inl (.inr hout))⟩

/-- The schemas below a node are converted one by one. -/
theorem subschemas_rel (h : Converted R root node out) :
    List.Forall₂ R (subschemas (.obj node)) (subschemas (.obj out)) := by
  have hproperties : List.Forall₂ R ((membersAt node "properties").map Prod.snd)
      ((membersAt out "properties").map Prod.snd) := by
    rw [List.forall₂_map_left_iff, List.forall₂_map_right_iff]
    exact (membersAt_rel h.properties).imp fun p q hpq => hpq.2
  have hitems : List.Forall₂ R (keyword? node "items").toList (keyword? out "items").toList := by
    rcases rel_cases h.items with ⟨hnode, hout⟩ | ⟨value, value', hnode, hout, hR⟩
    · rw [hnode, hout]
      exact .nil
    · rw [hnode, hout]
      exact .cons hR .nil
  exact List.rel_append (List.rel_append hproperties (elementsAt_rel h.anyOf)) hitems

/-- Every property is required. -/
theorem required_eq (h : Converted R root node out) :
    elementsAt out "required" = (membersAt node "properties").map fun p => .str p.1 := by
  have hkeys : (membersAt node "properties").map (fun p => Json.str p.1)
      = (membersAt out "properties").map fun p => Json.str p.1 :=
    map_eq_of_forall₂ (membersAt_rel h.properties) fun p q hpq => congrArg Json.str hpq.1
  have hclosed := h.closed
  unfold Closed at hclosed
  rw [hkeys, elementsAt, membersAt]
  split at hclosed
  · obtain ⟨props, hprops, -, hrequired⟩ := hclosed
    rw [hprops, hrequired]
    rfl
  · rw [hclosed.1, hclosed.2.1]
    rfl

/-- The only schema for other properties is `false`. -/
theorem additional_eq (h : Converted R root node out) {schema : Json}
    (hschema : keyword? node "additionalProperties" = some schema) : schema = .bool false := by
  have hclosed := h.closed
  unfold Closed at hclosed
  rw [h.additional, hschema] at hclosed
  split at hclosed
  · obtain ⟨-, -, hfalse, -⟩ := hclosed
    exact Option.some.inj hfalse
  · cases hclosed.2.2

theorem keyword?_dropped (h : Converted R root node out) {name : String}
    (hname : named ("const" :: dropped) name.toList = true) : keyword? out name = none := by
  by_contra hne
  obtain ⟨-, hdropped, hconst⟩ := h.keys _ hne
  rw [named, List.any_cons, Bool.or_eq_true, decide_eq_true_eq] at hname
  rcases hname with hname | hname
  · exact hconst hname
  · exact absurd (hdropped.symm.trans hname) Bool.false_ne_true

end Converted

/-- The schemas below a converted one are converted. -/
theorem Converts.cases {schema result : Json} (h : Converts schema result) :
    ∃ root node out, schema = .obj node ∧ result = .obj out ∧ Converted Converts root node out := by
  obtain ⟨rounds, root, h⟩ := h
  cases rounds with
  | zero => cases h
  | succ rounds =>
    obtain ⟨node, out, hnode, hout, hconverted⟩ := convert_ok h
    exact ⟨root, node, out, hnode, hout, hconverted.mono fun a b hab => ⟨rounds, false, hab⟩⟩

/-! ### Converting again -/

section

variable {R : Json → Json → Prop} {node : Dict Str Json}

theorem forall₂_self {l m : List Json} (h : List.Forall₂ R l m) (hR : ∀ a b, R a b → recur b = .ok b) :
    List.Forall₂ (fun a b => recur a = .ok b) m m := by
  induction h with
  | nil => exact .nil
  | cons hab _ ih => exact .cons (hR _ _ hab) ih

theorem convertFields_self {l m : Dict Str Json} (h : List.Forall₂ (fun p q => p.1 = q.1 ∧ R p.2 q.2) l m)
    (hR : ∀ a b, R a b → recur b = .ok b) : convertFields recur m = .ok m := by
  refine convertFields_of_forall₂ ?_
  induction h with
  | nil => exact .nil
  | cons hab _ ih => exact .cons ⟨rfl, hR _ _ hab.2⟩ ih

namespace Converted

theorem admitted_self (h : Converted R root node out) : admitted out = true := by
  have hall : (out.all fun p => named allowed p.1) = true := by
    rw [List.all_eq_true]
    intro p hp
    refine (h.keys p.1 fun hnone => ?_).1
    exact Dict.get?_eq_none.mp hnone (List.mem_map_of_mem hp)
  have hnone : (["format", "minLength", "maxLength", "pattern"].any (has out)) = false := by
    simp only [List.any_cons, List.any_nil, Bool.or_false, Bool.or_eq_false_iff, has_eq_false]
    exact ⟨h.keyword?_dropped (by decide), h.keyword?_dropped (by decide), h.keyword?_dropped (by decide),
      h.keyword?_dropped (by decide)⟩
  rw [admitted, hall, hnone]
  rfl

theorem filter_self (h : Converted R root node out) : (out.filter fun p => !named dropped p.1) = out := by
  rw [List.filter_eq_self]
  intro p hp
  rw [(h.keys p.1 fun hnone => Dict.get?_eq_none.mp hnone (List.mem_map_of_mem hp)).2.1]
  rfl

theorem constToEnum_self (h : Converted R root node out) : constToEnum out = .ok out := by
  rw [constToEnum, h.keyword?_dropped (by decide)]

theorem convertShape_self (h : Converted R root node out) (hR : ∀ a b, R a b → recur b = .ok b) :
    convertShape recur root (keyword? out "type") out = .ok out := by
  unfold convertShape
  cases h.shape with
  | ref halone href =>
    rw [if_pos (has_iff.mpr (by rw [href]; exact Option.some_ne_none _)), when_eq_ok]
    refine ⟨?_, rfl⟩
    rw [Bool.and_eq_true, List.all_eq_true, href]
    exact ⟨fun p hp => decide_eq_true (alone_iff.mp halone p hp), rfl⟩
  | union hroot halone halts hne =>
    rw [if_neg (by rw [has_eq_false.mpr (halone _ (by decide))]; decide),
      if_pos (has_iff.mpr (by rw [halts]; exact Option.some_ne_none _)), when_eq_ok]
    obtain ⟨-, hnone⟩ | ⟨_, _, -, hout, l, m, rfl, rfl, hrel⟩ := rel_cases h.anyOf
    · rw [halts] at hnone
      cases hnone
    have halts' : elementsAt out "anyOf" = m := by
      rw [elementsAt, hout]
      rfl
    rw [halts] at hout
    obtain rfl := Json.arr.inj (Option.some.inj hout)
    refine ⟨?_, ?_⟩
    · rw [Bool.and_eq_true, Bool.and_eq_true, List.all_eq_true, halts', hroot]
      exact ⟨⟨rfl, fun p hp => decide_eq_true (alone_iff.mp halone p hp)⟩, by simpa using hne⟩
    · rw [halts', mapM_eq_ok.mpr (forall₂_self hrel hR), ok_bind,
        (h.settled "anyOf" (by decide)).set_self halts]
  | typed href hanyOf hkind =>
    rw [if_neg (by rw [has_eq_false.mpr href]; decide), if_neg (by rw [has_eq_false.mpr hanyOf]; decide),
      if_pos hkind]

theorem convertObject_self (h : Converted R root node out) (hR : ∀ a b, R a b → recur b = .ok b) :
    convertObject recur (keyword? out "type") out = .ok out := by
  have hclosed := h.closed
  unfold Closed at hclosed
  unfold convertObject
  split at hclosed
  · rename_i hkind
    obtain ⟨props, hprops, hadditional, hrequired⟩ := hclosed
    obtain ⟨-, hnone⟩ | ⟨_, _, -, hout, l, m, rfl, rfl, hrel⟩ := rel_cases h.properties
    · rw [hprops] at hnone
      cases hnone
    rw [hprops] at hout
    obtain rfl := Json.obj.inj (Option.some.inj hout)
    have hrequires : AzureSchema.requires props (keyword? out "required") = true := by
      rw [hrequired]
      refine List.all_eq_true.mpr fun name hname => ?_
      obtain ⟨p, hp, rfl⟩ := List.mem_map.mp hname
      exact List.any_eq_true.mpr ⟨p, hp, decide_eq_true rfl⟩
    rw [if_pos hkind, hprops]
    dsimp only
    rw [when_eq_ok]
    refine ⟨?_, ?_⟩
    · rw [hadditional, hrequires]
      rfl
    · rw [convertFields_self hrel hR, ok_bind, (h.settled "properties" (by decide)).set_self hprops,
        (h.settled "required" (by decide)).set_self hrequired]
  · rename_i hkind
    rw [if_neg hkind, unless_eq_ok]
    simp only [List.any_cons, List.any_nil, Bool.or_false, Bool.or_eq_true, not_or, Bool.not_eq_true,
      has_eq_false]
    exact ⟨hclosed, trivial⟩

theorem convertArray_self (h : Converted R root node out) (hR : ∀ a b, R a b → recur b = .ok b) :
    convertArray recur (keyword? out "type") out = .ok out := by
  unfold convertArray
  rw [h.array]
  obtain ⟨-, hout⟩ | ⟨value, value', -, hout, hrel⟩ := rel_cases h.items
  · rw [if_neg (by rw [has_eq_false.mpr hout]; decide), if_neg (by rw [has_eq_false.mpr hout]; decide)]
  · rw [if_pos (has_iff.mpr (by rw [hout]; exact Option.some_ne_none _)), hout]
    dsimp only
    rw [hR _ _ hrel, ok_bind, (h.settled "items" (by decide)).set_self hout]

theorem convertDefs_self (h : Converted R root node out) (hR : ∀ a b, R a b → recur b = .ok b) :
    convertDefs recur root out = .ok out := by
  unfold convertDefs
  obtain ⟨-, hout⟩ | ⟨_, _, -, hout, l, m, rfl, rfl, hrel⟩ := rel_cases h.defs
  · rw [hout]
  · have hroot : root = true := h.rootDefs (has_iff.mpr (by rw [hout]; exact Option.some_ne_none _))
    rw [hout]
    dsimp only
    rw [if_pos hroot, convertFields_self hrel hR, ok_bind, (h.settled "$defs" (by decide)).set_self hout]

theorem convertEnum_self (h : Converted R root node out) :
    convertEnum (keyword? out "type") out = .ok out := by
  unfold convertEnum
  cases henum : keyword? out "enum" with
  | none => rfl
  | some value =>
    obtain ⟨values, rfl, hne, hall⟩ := h.values value henum
    dsimp only
    rw [if_pos, (h.settled "enum" (by decide)).set_self henum]
    rw [Bool.and_eq_true]
    exact ⟨by simpa using hne, hall⟩

/-- A converted node is converted to itself. -/
theorem convertNode_self (h : Converted R root node out) (hR : ∀ a b, R a b → recur b = .ok b) :
    convertNode recur root out = .ok out := by
  have hroot : ¬(root && !is (keyword? out "type") "object") = true := by
    cases hr : root with
    | false => exact Bool.false_ne_true
    | true =>
      rw [h.rootObject hr]
      decide
  unfold convertNode
  rw [if_pos h.admitted_self, h.filter_self, h.constToEnum_self, ok_bind]
  dsimp only
  rw [if_neg hroot, h.convertShape_self hR, ok_bind, h.convertObject_self hR, ok_bind,
    h.convertArray_self hR, ok_bind, h.convertDefs_self hR, ok_bind, h.convertEnum_self]

end Converted

/-- Converting again gives the same. -/
theorem convert_self {n rounds : Nat} {root : Bool} {schema result : Json}
    (h : convert n root schema = .ok result) (hrounds : height result < rounds) :
    convert rounds root result = .ok result := by
  induction rounds generalizing n root schema result with
  | zero => cases hrounds
  | succ rounds ih =>
    cases n with
    | zero => cases h
    | succ n =>
      obtain ⟨node, out, rfl, rfl, hconverted⟩ := convert_ok h
      have hbelow : Converted (fun a b => convert n false a = .ok b ∧ height b < rounds) root node out := by
        refine hconverted.and fun b hb => ?_
        refine lt_of_lt_of_le ?_ (Nat.le_of_lt_succ hrounds)
        rcases List.mem_append.mp hb with hb | hb
        · exact height_lt_of_mem_subschemas hb
        · obtain ⟨p, hp, rfl⟩ := List.mem_map.mp hb
          exact height_lt_of_mem_membersAt (show p ∈ membersAt (members (.obj out)) "$defs" from hp)
      rw [convert, hbelow.convertNode_self fun a b hab => ih hab.1 hab.2]
      rfl

end

/-! ### Termination -/

section

variable {out : Dict Str Json}

theorem fail_ne {α : Type} : (fail : Except SchemaFault α) ≠ .error .diverges := by
  intro h
  cases h

theorem constToEnum_ne : constToEnum out ≠ .error .diverges := by
  unfold constToEnum
  split
  · intro h
    cases h
  · split
    · exact fail_ne
    · intro h
      cases h

theorem convertFields_ne {fields : Dict Str Json} (h : ∀ p ∈ fields, recur p.2 ≠ .error .diverges) :
    convertFields recur fields ≠ .error .diverges :=
  mapM_ne_error fun p hp => map_ne_error (h p hp)

theorem convertShape_ne (h : ∀ a ∈ elementsAt out "anyOf", recur a ≠ .error .diverges) :
    convertShape recur root kind out ≠ .error .diverges := by
  unfold convertShape
  split
  · split
    · intro h
      cases h
    · exact fail_ne
  · split
    · split
      · exact bind_ne_error (mapM_ne_error h) fun _ _ he => (by cases he)
      · exact fail_ne
    · split
      · intro h
        cases h
      · exact fail_ne

theorem convertObject_ne (h : ∀ p ∈ membersAt out "properties", recur p.2 ≠ .error .diverges) :
    convertObject recur kind out ≠ .error .diverges := by
  unfold convertObject
  split
  · split
    · rename_i props hprops
      split
      · refine bind_ne_error (convertFields_ne fun p hp => h p ?_) fun _ _ he => (by cases he)
        rw [membersAt, hprops]
        exact hp
      · exact fail_ne
    · exact fail_ne
  · split
    · exact fail_ne
    · intro h
      cases h

theorem convertArray_ne (h : ∀ a, keyword? out "items" = some a → recur a ≠ .error .diverges) :
    convertArray recur kind out ≠ .error .diverges := by
  unfold convertArray
  split
  · split
    · exact fail_ne
    · rename_i items hitems
      exact bind_ne_error (h items hitems) fun _ _ he => (by cases he)
  · split
    · exact fail_ne
    · intro h
      cases h

theorem convertDefs_ne (h : ∀ p ∈ membersAt out "$defs", recur p.2 ≠ .error .diverges) :
    convertDefs recur root out ≠ .error .diverges := by
  unfold convertDefs
  split
  · intro h
    cases h
  · rename_i defs hdefs
    split
    · refine bind_ne_error (convertFields_ne fun p hp => h p ?_) fun _ _ he => (by cases he)
      rw [membersAt, hdefs]
      exact hp
    · exact fail_ne
  · exact fail_ne

theorem convertEnum_ne : convertEnum kind out ≠ .error .diverges := by
  unfold convertEnum
  split
  · intro h
    cases h
  · split
    · intro h
      cases h
    · exact fail_ne
  · exact fail_ne

/-- A node is converted within the rounds the schemas below it are. -/
theorem convertNode_ne {node : Dict Str Json}
    (h : ∀ child ∈ subschemas (.obj node) ++ (definitions (.obj node)).map Prod.snd,
      recur child ≠ .error .diverges) : convertNode recur root node ≠ .error .diverges := by
  simp only [subschemas, definitions, List.mem_append, List.mem_map, Option.mem_toList, members] at h
  unfold convertNode
  split
  · refine bind_ne_error constToEnum_ne fun out₀ h₀ => ?_
    dsimp only
    split
    · exact fail_ne
    -- the stages read the schemas below the node as they were
    have hkeep : ∀ name, named dropped name.toList = false →
        named ["const", "enum"] name.toList = false → keyword? out₀ name = keyword? node name := by
      intro name hname hnew
      rw [keyword?, (constToEnum_ok h₀).1 _ hnew, Dict.get?_filter_key (fun key => !named dropped key), hname]
      rfl
    refine bind_ne_error (convertShape_ne fun a ha => h a (.inl (.inl (.inr ?_)))) fun out₁ h₁ => ?_
    · rwa [elementsAt, hkeep _ (by decide) (by decide)] at ha
    have hstage₁ := (convertShape_ok h₁).1
    refine bind_ne_error (convertObject_ne fun p hp => h p.2 (.inl (.inl (.inl ⟨p, ?_, rfl⟩)))) fun out₂ h₂ => ?_
    · rwa [membersAt, hstage₁.keyword?_eq (by decide), hkeep _ (by decide) (by decide)] at hp
    have hstage₂ := hstage₁.trans (convertObject_ok h₂).1
    refine bind_ne_error (convertArray_ne fun a ha => h a (.inl (.inr ?_))) fun out₃ h₃ => ?_
    · rwa [hstage₂.keyword?_eq (by decide), hkeep _ (by decide) (by decide)] at ha
    have hstage₃ := hstage₂.trans (convertArray_ok h₃).1
    refine bind_ne_error (convertDefs_ne fun p hp => h p.2 (.inr ⟨p, ?_, rfl⟩)) fun out₄ h₄ => convertEnum_ne
    rwa [membersAt, hstage₃.keyword?_eq (by decide), hkeep _ (by decide) (by decide)] at hp
  · exact fail_ne

end

theorem convert_ne {rounds : Nat} {root : Bool} {schema : Json} (h : height schema < rounds) :
    convert rounds root schema ≠ .error .diverges := by
  induction rounds generalizing root schema with
  | zero => cases h
  | succ rounds ih =>
    cases schema with
    | obj node =>
      refine map_ne_error (convertNode_ne fun child hchild => ih ?_)
      refine lt_of_lt_of_le ?_ (Nat.le_of_lt_succ h)
      rcases List.mem_append.mp hchild with hb | hb
      · exact height_lt_of_mem_subschemas hb
      · obtain ⟨p, hp, rfl⟩ := List.mem_map.mp hb
        exact height_lt_of_mem_membersAt (show p ∈ membersAt (members (.obj node)) "$defs" from hp)
    | null => exact fail_ne
    | bool b => exact fail_ne
    | int i => exact fail_ne
    | float repr => exact fail_ne
    | str s => exact fail_ne
    | arr items => exact fail_ne

end Polymind.Llm.AzureSchema
