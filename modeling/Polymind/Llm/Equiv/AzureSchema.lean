import Polymind.Llm.Equiv.Conversion

/-!
# Strict provider schemas keep their meaning

`valid_erase` and `valid_converted` compare the values that are valid for a schema and for its
conversion, by induction on validity; `bounded_of_depth` says what the check of the depth has seen
of a schema; `provider_schema_exact` puts them together.
-/

namespace Polymind.Llm.AzureSchema

open Json JsonSchema

/-! ### Validity -/

section

variable {D : Dialect} {defs defs' : Dict Str Json}

/-- A reference is resolved to a definition and to its conversion. -/
theorem resolve_rel (hdefs : List.Forall₂ (fun p q => p.1 = q.1 ∧ Converts p.2 q.2) defs defs')
    (ref : Json) : Option.Rel Converts (resolve defs ref) (resolve defs' ref) := by
  cases ref with
  | str s =>
    unfold resolve
    dsimp only
    split
    · exact Dict.get?_rel hdefs _
    · exact .none
  | null => exact .none
  | bool b => exact .none
  | int i => exact .none
  | float repr => exact .none
  | arr items => exact .none
  | obj fields => exact .none

/-- A reference is resolved to the erased definition. -/
theorem resolve_erase (defs : Dict Str Json) (ref : Json) :
    resolve (defs.map fun p => (p.1, erase p.2)) ref = (resolve defs ref).map erase := by
  have hget : ∀ key, Dict.get? (defs.map fun p => (p.1, erase p.2)) key = (defs.get? key).map erase := by
    intro key
    induction defs with
    | nil => rfl
    | cons p defs ih =>
      rw [List.map_cons, Dict.get?_cons, Dict.get?_cons, ih]
      split <;> rfl
  cases ref with
  | str s =>
    unfold resolve
    dsimp only
    split
    · exact hget _
    · rfl
  | null => rfl
  | bool b => rfl
  | int i => rfl
  | float repr => rfl
  | arr items => rfl
  | obj fields => rfl

theorem requires_spec {props node : Dict Str Json}
    (h : requires props (keyword? node "required") = true) {name : Json}
    (hname : name ∈ elementsAt node "required") : ∃ p ∈ props, name = .str p.1 := by
  unfold elementsAt at hname
  cases hrequired : keyword? node "required" with
  | none =>
    rw [hrequired] at hname
    exact absurd hname List.not_mem_nil
  | some value =>
    rw [hrequired] at hname h
    cases value with
    | arr names =>
      obtain ⟨p, hp, heq⟩ := List.any_eq_true.mp (List.all_eq_true.mp h name hname)
      refine ⟨p, hp, ?_⟩
      cases name with
      | str s => exact congrArg Json.str (of_decide_eq_true heq)
      | null => cases heq
      | bool b => cases heq
      | int i => cases heq
      | float repr => cases heq
      | arr items => cases heq
      | obj fields => cases heq
    | null => cases h
    | bool b => cases h
    | int i => cases h
    | float repr => cases h
    | str s => cases h
    | obj fields => cases h

/-- What is valid for a converted schema is valid for the schemas it is converted from, without their
keywords on strings.  Only `false`, for which nothing is valid, is not converted. -/
def ValidErased (D : Dialect) (defs : Dict Str Json) (result v : Json) : Prop :=
  result ≠ .bool false ∧ ∀ schema, Converts schema result →
    Valid D False (defs.map fun p => (p.1, erase p.2)) (erase schema) v

/-- One node: the keywords that were kept, rewritten or strengthened say what the erased ones do. -/
theorem keywords_erase (hdefs : List.Forall₂ (fun p q => p.1 = q.1 ∧ Converts p.2 q.2) defs defs')
    {root : Bool} {node out : Dict Str Json} {v : Json} (hc : Converted Converts root node out)
    (h : Keywords D False defs' (ValidErased D defs) out v) :
    Keywords D False (defs.map fun p => (p.1, erase p.2)) (Valid D False (defs.map fun p => (p.1, erase p.2)))
      (eraseKeywords node) v where
  type := fun t ht => by
    rw [keyword?_eraseKeywords_same node (by decide) fun _ => rfl, ← hc.type] at ht
    exact h.type t ht
  enum := fun e he => by
    rw [keyword?_eraseKeywords_same node (by decide) fun _ => rfl] at he
    rcases hc.enum with ⟨-, henum⟩ | ⟨hnone, -⟩
    · exact h.enum e (henum.trans he)
    · rw [hnone] at he
      cases he
  const := fun x hx => by
    rw [keyword?_eraseKeywords_same node (by decide) fun _ => rfl] at hx
    rcases hc.enum with ⟨hnone, -⟩ | ⟨-, value, hconst, henum⟩
    · rw [hnone] at hx
      cases hx
    · obtain ⟨y, hy, hsame⟩ := h.enum _ henum
      rw [hconst] at hx
      rw [← Option.some.inj hx, ← List.mem_singleton.mp hy]
      exact hsame
  strings := fun s _ => by
    have hgone : ∀ name : String, name.toList ∈ stringKeywords → keyword? (eraseKeywords node) name = none := by
      intro name hname
      rw [keyword?, get?_eraseKeywords, if_pos hname]
    refine ⟨fun _ hname => ?_, fun _ hn => ?_, fun _ hn => ?_, fun _ hregex => ?_⟩
    · rw [hgone _ (by decide)] at hname
      cases hname
    · rw [hgone _ (by decide)] at hn
      cases hn
    · rw [hgone _ (by decide)] at hn
      cases hn
    · rw [hgone _ (by decide)] at hregex
      cases hregex
  ref := fun ref href => by
    rw [keyword?_eraseKeywords_same node (by decide) fun _ => rfl, ← hc.ref] at href
    obtain ⟨target', htarget', hvalid⟩ := h.ref ref href
    rcases rel_cases (resolve_rel hdefs ref) with ⟨-, hnone⟩ | ⟨target, target'', htarget, hsome, hconverts⟩
    · rw [hnone] at htarget'
      cases htarget'
    · rw [hsome] at htarget'
      obtain rfl := Option.some.inj htarget'
      refine ⟨erase target, ?_, hvalid.2 target hconverts⟩
      rw [resolve_erase, htarget]
      rfl
  anyOf := fun alts halts => by
    rw [keyword?_eraseKeywords node (by decide)] at halts
    rcases rel_cases hc.anyOf with ⟨hnone, -⟩ | ⟨_, _, hnode, hout, l, m, rfl, rfl, hrel⟩
    · rw [hnone] at halts
      cases halts
    · rw [hnode] at halts
      obtain rfl := Option.some.inj halts
      obtain ⟨schema', hmem', hvalid⟩ := h.anyOf _ hout
      obtain ⟨schema, hmem, hconverts⟩ := mem_of_forall₂ hrel hmem'
      refine ⟨erase schema, ?_, hvalid.2 schema hconverts⟩
      show erase schema ∈ elements (eraseElements (.arr l))
      rw [elements_eraseElements]
      exact List.mem_map_of_mem hmem
  properties := fun p hp w hw => by
    rw [membersAt_eraseKeywords node (by decide) (.inl rfl)] at hp
    obtain ⟨q, hq, rfl⟩ := List.mem_map.mp hp
    obtain ⟨q', hq', hkey, hconverts⟩ := mem_of_forall₂ (Converted.membersAt_rel hc.properties).flip hq
    rw [hkey] at hw
    exact (h.properties q' hq' w hw).2 q.2 hconverts
  additional := fun schema hschema m hm hnew => by
    rw [keyword?_eraseKeywords node (by decide)] at hschema
    obtain ⟨schema, hnode, -⟩ := Option.map_eq_some_iff.mp hschema
    obtain rfl := hc.additional_eq hnode
    rw [membersAt_eraseKeywords node (by decide) (.inl rfl), List.map_map] at hnew
    change m.1 ∉ (membersAt node "properties").map Prod.fst at hnew
    rw [map_eq_of_forall₂ (Converted.membersAt_rel hc.properties) fun p q hpq => hpq.1] at hnew
    exact absurd rfl (h.additional _ (hc.additional.trans hnode) m hm hnew).1
  required := fun hobject name hname => by
    rw [elementsAt, keyword?_eraseKeywords_same node (by decide) fun _ => rfl] at hname
    obtain ⟨p, hp, rfl⟩ := requires_spec hc.requires hname
    refine h.required hobject _ ?_
    rw [hc.required_eq]
    exact List.mem_map_of_mem hp
  items := fun schema hschema w hw => by
    rw [keyword?_eraseKeywords node (by decide)] at hschema
    rcases rel_cases hc.items with ⟨hnone, -⟩ | ⟨value, value', hnode, hout, hconverts⟩
    · rw [hnone] at hschema
      cases hschema
    · rw [hnode] at hschema
      obtain rfl := Option.some.inj hschema
      exact (h.items value' hout w hw).2 value hconverts
  carries := fun hcarries => hcarries.elim

/-- What is valid for a converted schema is valid for the schema without its keywords on strings. -/
theorem valid_erase (hdefs : List.Forall₂ (fun p q => p.1 = q.1 ∧ Converts p.2 q.2) defs defs')
    {schema result v : Json} (hconverts : Converts schema result) (h : Valid D False defs' result v) :
    Valid D False (defs.map fun p => (p.1, erase p.2)) (erase schema) v := by
  have hstep : ∀ out v, Keywords D False defs' (ValidErased D defs) out v → ValidErased D defs (.obj out) v := by
    intro out v hv
    refine ⟨fun he => (by cases he), fun schema hconverts => ?_⟩
    obtain ⟨root, node, out', rfl, hout, hc⟩ := hconverts.cases
    obtain rfl := Json.obj.inj hout
    exact valid_obj_iff.mpr (keywords_erase hdefs hc hv)
  have htrue : ∀ v, ValidErased D defs (.bool true) v := by
    intro v
    refine ⟨fun he => (by cases he), fun schema hconverts => ?_⟩
    obtain ⟨root, node, out', -, hout, -⟩ := hconverts.cases
    cases hout
  exact (valid_induction hstep htrue h).2 schema hconverts

/-- What is valid for a schema, with every property carried, is valid for its conversions. -/
def ValidConverted (D : Dialect) (defs' : Dict Str Json) (schema v : Json) : Prop :=
  schema ≠ .bool false ∧ ∀ result, Converts schema result → Valid D False defs' result v

theorem keywords_converted (hdefs : List.Forall₂ (fun p q => p.1 = q.1 ∧ Converts p.2 q.2) defs defs')
    {root : Bool} {node out : Dict Str Json} {v : Json} (hc : Converted Converts root node out)
    (h : Keywords D True defs (ValidConverted D defs') node v) :
    Keywords D False defs' (Valid D False defs') out v where
  type := fun t ht => h.type t (hc.type.symm.trans ht)
  enum := fun e he => by
    rcases hc.enum with ⟨-, henum⟩ | ⟨-, value, hconst, henum⟩
    · exact h.enum e (henum.symm.trans he)
    · rw [henum] at he
      obtain rfl := Option.some.inj he
      exact ⟨value, List.mem_singleton_self _, h.const value hconst⟩
  const := fun x hx => by
    rw [hc.keyword?_dropped (by decide)] at hx
    cases hx
  strings := fun s _ => by
    refine ⟨fun _ hname => ?_, fun _ hn => ?_, fun _ hn => ?_, fun _ hregex => ?_⟩
    · rw [hc.keyword?_dropped (by decide)] at hname
      cases hname
    · rw [hc.keyword?_dropped (by decide)] at hn
      cases hn
    · rw [hc.keyword?_dropped (by decide)] at hn
      cases hn
    · rw [hc.keyword?_dropped (by decide)] at hregex
      cases hregex
  ref := fun ref href => by
    obtain ⟨target, htarget, hvalid⟩ := h.ref ref (hc.ref.symm.trans href)
    rcases rel_cases (resolve_rel hdefs ref) with ⟨hnone, -⟩ | ⟨target', result, hsome, hresult, hconverts⟩
    · rw [hnone] at htarget
      cases htarget
    · rw [hsome] at htarget
      obtain rfl := Option.some.inj htarget
      exact ⟨result, hresult, hvalid.2 result hconverts⟩
  anyOf := fun alts halts => by
    rcases rel_cases hc.anyOf with ⟨-, hnone⟩ | ⟨_, _, hnode, hout, l, m, rfl, rfl, hrel⟩
    · rw [hnone] at halts
      cases halts
    · rw [hout] at halts
      obtain rfl := Option.some.inj halts
      obtain ⟨schema, hmem, hvalid⟩ := h.anyOf _ hnode
      obtain ⟨result, hmem', hconverts⟩ := mem_of_forall₂ hrel.flip hmem
      exact ⟨result, hmem', hvalid.2 result hconverts⟩
  properties := fun q hq w hw => by
    obtain ⟨p, hp, hkey, hconverts⟩ := mem_of_forall₂ (Converted.membersAt_rel hc.properties) hq
    rw [← hkey] at hw
    exact (h.properties p hp w hw).2 q.2 hconverts
  additional := fun schema hschema m hm hnew => by
    rw [hc.additional] at hschema
    obtain rfl := hc.additional_eq hschema
    rw [← map_eq_of_forall₂ (Converted.membersAt_rel hc.properties) fun p q hpq => hpq.1] at hnew
    exact absurd rfl (h.additional _ hschema m hm hnew).1
  required := fun hobject name hname => by
    -- a value that carries all properties has the ones that are required now
    rw [hc.required_eq] at hname
    obtain ⟨p, hp, rfl⟩ := List.mem_map.mp hname
    exact ⟨p.1, h.carries trivial hobject p hp, rfl⟩
  items := fun schema hschema w hw => by
    rcases rel_cases hc.items with ⟨-, hnone⟩ | ⟨value, value', hnode, hout, hconverts⟩
    · rw [hnone] at hschema
      cases hschema
    · rw [hout] at hschema
      obtain rfl := Option.some.inj hschema
      exact (h.items value hnode w hw).2 value' hconverts
  carries := fun hcarries => hcarries.elim

/-- A value that is valid for a schema and carries all properties is valid for the converted schema. -/
theorem valid_converted (hdefs : List.Forall₂ (fun p q => p.1 = q.1 ∧ Converts p.2 q.2) defs defs')
    {schema result v : Json} (hconverts : Converts schema result) (h : Valid D True defs schema v) :
    Valid D False defs' result v := by
  have hstep : ∀ node v, Keywords D True defs (ValidConverted D defs') node v →
      ValidConverted D defs' (.obj node) v := by
    intro node v hv
    refine ⟨fun he => (by cases he), fun result hconverts => ?_⟩
    obtain ⟨root, node', out, hnode, rfl, hc⟩ := hconverts.cases
    obtain rfl := Json.obj.inj hnode
    exact valid_obj_iff.mpr (keywords_converted hdefs hc hv)
  have htrue : ∀ v, ValidConverted D defs' (.bool true) v := by
    intro v
    refine ⟨fun he => (by cases he), fun result hconverts => ?_⟩
    obtain ⟨root, node, out, hnode, -, -⟩ := hconverts.cases
    cases hnode
  exact (valid_induction hstep htrue h).2 result hconverts

end

/-! ### The graph of references -/

/-- The paths from a schema are bounded, resolve every reference, and pass few containers. -/
def Bounded (defs : Dict Str Json) (rounds : Nat) (level : Int) (schema : Json) : Prop :=
  ∀ path : List Json, (schema :: path).IsChain (Step defs) →
    path.length < rounds ∧ level + ((schema :: path).countP isContainer : Nat) ≤ 5
      ∧ ∀ node ∈ schema :: path, ∀ ref, keyword? (members node) "$ref" = some ref →
        ∃ target, resolve defs ref = some target

/-- The paths from a schema go through the schemas one step below it. -/
theorem bounded_of_steps {defs : Dict Str Json} {rounds : Nat} {level level' : Int} {schema : Json}
    (hlevel : level' = level + if isContainer schema = true then 1 else 0) (hle : level' ≤ 5)
    (href : ∀ ref, keyword? (members schema) "$ref" = some ref → ∃ target, resolve defs ref = some target)
    (hstep : ∀ child, Step defs schema child → Bounded defs rounds level' child) :
    Bounded defs (rounds + 1) level schema := by
  have hcount : ∀ path : List Json, level + ((schema :: path).countP isContainer : Nat)
      = level' + (path.countP isContainer : Nat) := by
    intro path
    rw [List.countP_cons, hlevel]
    split <;> push_cast <;> omega
  intro path hchain
  rw [hcount]
  cases path with
  | nil =>
    refine ⟨Nat.succ_pos _, ?_, fun node hnode => ?_⟩
    · rw [List.countP_nil]
      omega
    · rw [List.mem_singleton.mp hnode]
      exact href
  | cons child path =>
    rw [List.isChain_cons_cons] at hchain
    obtain ⟨hlength, hcontainers, hresolve⟩ := hstep child hchain.1 path hchain.2
    refine ⟨Nat.succ_lt_succ hlength, hcontainers, fun node hnode => ?_⟩
    rcases List.mem_cons.mp hnode with rfl | hnode
    · exact href
    · exact hresolve node hnode

/-- A schema with its conversion is a container. -/
theorem Converted.isContainer_eq {R : Json → Json → Prop} {root : Bool} {node out : Dict Str Json}
    (h : Converted R root node out) : isContainer (.obj node) = isContainer (.obj out) := by
  show (keyword? node "type").any _ = (keyword? out "type").any _
  rw [h.type]

section

variable {defs defs' : Dict Str Json}

/-- Nothing is below a reference. -/
theorem Converted.subschemas_of_alone {root : Bool} {node out : Dict Str Json}
    (h : Converted Converts root node out) (halone : Alone "$ref" out) : subschemas (.obj node) = [] := by
  have hrel := h.subschemas_rel
  have hout : subschemas (.obj out) = [] := by
    rw [subschemas, membersAt, elementsAt]
    show (Option.elim (keyword? out "properties") [] members).map Prod.snd
      ++ Option.elim (keyword? out "anyOf") [] elements ++ (keyword? out "items").toList = []
    rw [show keyword? out "properties" = none from halone _ (by decide),
      show keyword? out "anyOf" = none from halone _ (by decide),
      show keyword? out "items" = none from halone _ (by decide)]
    rfl
  rw [hout] at hrel
  exact List.forall₂_nil_right_iff.mp hrel

/-- `depth` follows every path. -/
theorem bounded_of_depth (hdefs : List.Forall₂ (fun p q => p.1 = q.1 ∧ Converts p.2 q.2) defs defs')
    {rounds : Nat} {schema result : Json} {level : Int} {seen : List Str}
    (hconverts : Converts schema result) (h : depth defs' rounds result level seen = .ok ()) :
    Bounded defs rounds level schema := by
  induction rounds generalizing schema result level seen with
  | zero => cases h
  | succ rounds ih =>
    obtain ⟨root, node, out, rfl, rfl, hc⟩ := hconverts.cases
    unfold depth at h
    cases href : keyword? out "$ref" with
    | some ref =>
      -- a reference: its target is all that is below it
      have hshape : ∃ s, Alone "$ref" out ∧ ref = .str s := by
        cases hc.shape with
        | ref halone hs => exact ⟨_, halone, Option.some.inj (href.symm.trans hs)⟩
        | union _ halone _ _ =>
          rw [show keyword? out "$ref" = none from halone _ (by decide)] at href
          cases href
        | typed hnone _ _ =>
          rw [hnone] at href
          cases href
      obtain ⟨s, halone, rfl⟩ := hshape
      have hcontainer : isContainer (.obj node) = false := by
        rw [hc.isContainer_eq]
        show Option.any _ (keyword? out "type") = false
        rw [show keyword? out "type" = none from halone _ (by decide)]
        rfl
      rw [show members (.obj out) = out from rfl, href] at h
      dsimp only at h
      rcases rel_cases (resolve_rel hdefs (.str s)) with ⟨-, hnone⟩ | ⟨target, target', htarget, htarget', hrel⟩
      · rw [hnone] at h
        cases h
      rw [htarget'] at h
      dsimp only at h
      rw [unless_eq_ok] at h
      have hbelow := ih hrel h.2
      have hle := (hbelow [] (List.isChain_singleton _)).2.1
      have hlevel : level = level + if isContainer (.obj node) = true then 1 else 0 := by
        rw [hcontainer]
        exact (Int.add_zero _).symm
      refine bounded_of_steps hlevel ?_ ?_ ?_
      · omega
      · intro ref hnode
        rw [show keyword? (members (.obj node)) "$ref" = keyword? out "$ref" from hc.ref.symm, href] at hnode
        exact ⟨target, Option.some.inj hnode ▸ htarget⟩
      · intro child hchild
        cases hchild with
        | ref hnode hresolve =>
          rw [show keyword? (members (.obj node)) "$ref" = keyword? out "$ref" from hc.ref.symm, href] at hnode
          rw [← Option.some.inj hnode, htarget] at hresolve
          exact Option.some.inj hresolve ▸ hbelow
        | sub hchild =>
          rw [hc.subschemas_of_alone halone] at hchild
          exact absurd hchild List.not_mem_nil
    | none =>
      -- a node: the schemas below it
      have hlevel : (if isContainer (.obj out) = true then level + 1 else level)
          = level + if isContainer (.obj node) = true then 1 else 0 := by
        rw [hc.isContainer_eq]
        split
        · rfl
        · exact (Int.add_zero _).symm
      rw [show members (.obj out) = out from rfl, href] at h
      dsimp only at h
      rw [unless_eq_ok, forM_eq_ok, hlevel] at h
      refine bounded_of_steps rfl (Int.not_lt.mp h.1) ?_ ?_
      · intro ref hnode
        rw [show keyword? (members (.obj node)) "$ref" = keyword? out "$ref" from hc.ref.symm, href] at hnode
        cases hnode
      · intro child hchild
        cases hchild with
        | ref hnode hresolve =>
          rw [show keyword? (members (.obj node)) "$ref" = keyword? out "$ref" from hc.ref.symm, href] at hnode
          cases hnode
        | sub hchild =>
          obtain ⟨child', hchild', hrel⟩ := mem_of_forall₂ hc.subschemas_rel.flip hchild
          exact ih hrel (h.2 child' hchild')

end

/-! ### Termination -/

theorem countProperties_ne {rounds : Nat} {node : Json} (h : height node < rounds) (count : Nat) :
    countProperties rounds node count ≠ .error .diverges := by
  induction rounds generalizing node count with
  | zero => cases h
  | succ rounds ih =>
    refine foldlM_ne_error (fun count child hchild => ih ?_ count) _
    refine lt_of_lt_of_le ?_ (Nat.le_of_lt_succ h)
    simp only [List.mem_append, List.mem_map, Option.mem_toList] at hchild
    rcases hchild with ((⟨p, hp, rfl⟩ | ⟨p, hp, rfl⟩) | halt) | hitem
    · exact height_lt_of_mem_membersAt hp
    · exact height_lt_of_mem_membersAt hp
    · exact height_lt_of_mem_elementsAt halt
    · exact height_lt_of_keyword? hitem

/-- The definitions that a path has not been at. -/
def unseen (defs : Dict Str Json) (seen : List Str) : Nat :=
  (defs.filter fun p => !seen.contains (refPrefix ++ p.1)).length

/-- A definition that a path is at for the first time is one less. -/
theorem unseen_lt {defs : Dict Str Json} {seen : List Str} {ref : Str} {target : Json}
    (htarget : resolve defs (.str ref) = some target) (hnew : ref ∉ seen) :
    unseen defs (seen ++ [ref]) < unseen defs seen ∧ target ∈ defs.map Prod.snd := by
  unfold resolve at htarget
  dsimp only at htarget
  split at htarget
  · rename_i hlocal
    obtain ⟨name, rfl⟩ := List.isPrefixOf_iff_prefix.mp hlocal
    rw [List.drop_left] at htarget
    have hmem := Dict.mem_of_get? htarget
    have hfilter : (defs.filter fun p => !(seen ++ [refPrefix ++ name]).contains (refPrefix ++ p.1))
        = (defs.filter fun p => !seen.contains (refPrefix ++ p.1)).filter
          fun p => !decide (p.1 = name) := by
      rw [List.filter_filter]
      refine List.filter_congr fun p _ => ?_
      simp [Bool.and_comm]
    refine ⟨?_, List.mem_map_of_mem hmem⟩
    unfold unseen
    rw [hfilter, List.length_filter_lt_length_iff_exists]
    exact ⟨_, List.mem_filter.mpr ⟨hmem, by simpa using hnew⟩, by simp⟩
  · cases htarget

/-- A path is at every definition once, and goes down in between. -/
theorem depth_ne {defs : Dict Str Json} {high rounds : Nat} {node : Json} {level : Int} {seen : List Str}
    (hhigh : ∀ schema ∈ defs.map Prod.snd, height schema ≤ high)
    (h : unseen defs seen * (high + 1) + height node < rounds) :
    depth defs rounds node level seen ≠ .error .diverges := by
  induction rounds generalizing node level seen with
  | zero => cases h
  | succ rounds ih =>
    unfold depth
    split
    · rename_i ref href
      split
      · rename_i target htarget
        split
        · exact fail_ne
        · rename_i hnew
          obtain ⟨hlt, hmem⟩ := unseen_lt htarget fun h => hnew (List.contains_iff_mem.mpr h)
          refine ih ?_
          have hmul := Nat.mul_le_mul_right (high + 1) hlt
          have htop := hhigh target hmem
          rw [Nat.succ_mul] at hmul
          omega
      · exact fail_ne
    · exact fail_ne
    · dsimp only
      generalize (if isContainer node = true then level + 1 else level) = below
      split
      · exact fail_ne
      · refine forM_ne_error fun child hchild => ih ?_
        have hlt := height_lt_of_mem_subschemas hchild
        omega

theorem providerSchema_ne (schema : Json) : providerSchema schema ≠ .error .diverges := by
  refine bind_ne_error (convert_ne (Nat.lt_succ_self _)) fun result _ => ?_
  dsimp only
  refine bind_ne_error (countProperties_ne (Nat.lt_succ_self _) 0) fun count _ => ?_
  split
  · exact fail_ne
  have hhigh : ∀ schema ∈ (definitions result).map Prod.snd, height schema ≤ height result := by
    intro schema hmem
    obtain ⟨p, hp, rfl⟩ := List.mem_map.mp hmem
    exact (height_lt_of_mem_membersAt hp).le
  have hrounds : ∀ node, height node ≤ height result →
      unseen (definitions result) [] * (height result + 1) + height node
        < ((definitions result).length + 1) * (height result + 1) := by
    intro node hnode
    have hunseen : unseen (definitions result) [] = (definitions result).length := by
      rw [unseen, List.filter_eq_self.mpr]
      simp
    rw [hunseen, Nat.succ_mul]
    omega
  refine bind_ne_error (depth_ne hhigh (hrounds result (Nat.le_refl _))) fun _ _ => ?_
  refine bind_ne_error (forM_ne_error fun p hp => depth_ne hhigh (hrounds p.2 ?_)) fun _ _ he => (by cases he)
  exact hhigh _ (List.mem_map_of_mem hp)

/-! ### The provider's schema -/

/-- What `provider_schema` has checked of the schema that it accepts. -/
theorem providerSchema_ok {schema result : Json} (h : providerSchema schema = .ok result) :
    convert (height schema + 1) true schema = .ok result
      ∧ (∃ count, countProperties (height result + 1) result 0 = .ok count ∧ ¬100 < count)
      ∧ depth (definitions result) (((definitions result).length + 1) * (height result + 1)) result (-1) [] = .ok ()
      ∧ ∀ p ∈ definitions result, depth (definitions result)
        (((definitions result).length + 1) * (height result + 1)) p.2 (-1) [] = .ok () := by
  obtain ⟨result', hconvert, h⟩ := bind_eq_ok.mp h
  obtain ⟨count, hcount, h⟩ := bind_eq_ok.mp h
  obtain ⟨hfew, h⟩ := unless_eq_ok.mp h
  obtain ⟨⟨⟩, hroot, h⟩ := bind_eq_ok.mp h
  obtain ⟨⟨⟩, hdefs, h⟩ := bind_eq_ok.mp h
  obtain rfl := Except.ok.inj h
  exact ⟨hconvert, ⟨count, hcount, hfew⟩, hroot, forM_eq_ok.mp hdefs⟩

/-- The definitions are converted one by one. -/
theorem definitions_rel {rounds : Nat} {schema result : Json} (h : convert rounds true schema = .ok result) :
    List.Forall₂ (fun p q => p.1 = q.1 ∧ Converts p.2 q.2) (definitions schema) (definitions result) := by
  obtain ⟨root, node, out, rfl, rfl, hc⟩ := Converts.cases ⟨rounds, true, h⟩
  exact Converted.membersAt_rel hc.defs

/-- The paths from an accepted schema and from each of its definitions are bounded. -/
theorem bounded_of_ok {schema result : Json} (h : providerSchema schema = .ok result) :
    ∃ rounds, ∀ start ∈ schema :: (definitions schema).map Prod.snd,
      Bounded (definitions schema) rounds (-1) start := by
  obtain ⟨hconvert, -, hroot, hall⟩ := providerSchema_ok h
  have hdefs := definitions_rel hconvert
  refine ⟨((definitions result).length + 1) * (height result + 1), fun start hstart => ?_⟩
  rcases List.mem_cons.mp hstart with rfl | hstart
  · exact bounded_of_depth hdefs ⟨_, _, hconvert⟩ hroot
  · obtain ⟨p, hp, rfl⟩ := List.mem_map.mp hstart
    obtain ⟨q, hq, -, hconverts⟩ := mem_of_forall₂ hdefs.flip hp
    exact bounded_of_depth hdefs hconverts (hall q hq)

/-- An accepted schema is an object. -/
theorem isContainer_of_ok {schema result : Json} (h : providerSchema schema = .ok result) :
    isContainer schema = true := by
  obtain ⟨node, out, rfl, rfl, hc⟩ := convert_ok (providerSchema_ok h).1
  rw [hc.isContainer_eq]
  obtain ⟨kind, hkind, hobject⟩ := (Option.any_eq_true _ _).mp (hc.rootObject rfl)
  exact (Option.any_eq_true _ _).mpr ⟨kind, hkind, by rw [hobject]; rfl⟩

/-- The result is accepted again, unchanged. -/
theorem providerSchema_self {schema result : Json} (h : providerSchema schema = .ok result) :
    providerSchema result = .ok result := by
  obtain ⟨hconvert, ⟨count, hcount, hfew⟩, hroot, hall⟩ := providerSchema_ok h
  unfold providerSchema
  rw [convert_self hconvert (Nat.lt_succ_self _), ok_bind]
  dsimp only
  rw [hcount, ok_bind, if_neg hfew, hroot, ok_bind, forM_eq_ok.mpr hall, ok_bind]

/-- **Strict-schema conversion preserves meaning.**  `provider_schema` ends on every schema.  What is
valid for an accepted schema's conversion is valid for the schema without its keywords on strings; what
is valid for the schema and carries all properties is valid for the conversion; the conversion of the
conversion is itself; and from the root and from each definition every reference resolves, no path of
references and subschemas is circular, and at most five containers are nested below the outermost. -/
theorem provider_schema_exact (D : Dialect) (schema : Json) :
    providerSchema schema ≠ .error .diverges
      ∧ ∀ result, providerSchema schema = .ok result →
        (∀ v, IsValid D result v → IsValid D (erase schema) v)
        ∧ (∀ v, IsValidCarryingAll D schema v → IsValid D result v)
        ∧ providerSchema result = .ok result
        ∧ (∀ start ∈ schema :: (definitions schema).map Prod.snd, ∀ node,
            Relation.ReflTransGen (Step (definitions schema)) start node →
            ¬Relation.TransGen (Step (definitions schema)) node node
              ∧ ∀ ref, keyword? (members node) "$ref" = some ref →
                ∃ target, resolve (definitions schema) ref = some target)
        ∧ (∀ start ∈ schema :: (definitions schema).map Prod.snd, ∀ path,
            (start :: path).IsChain (Step (definitions schema)) → (start :: path).countP isContainer ≤ 6)
        ∧ ∀ path, (schema :: path).IsChain (Step (definitions schema)) → path.countP isContainer ≤ 5 := by
  refine ⟨providerSchema_ne schema, fun result h => ?_⟩
  have hconvert := (providerSchema_ok h).1
  have hdefs := definitions_rel hconvert
  have hconverts : Converts schema result := ⟨_, _, hconvert⟩
  obtain ⟨rounds, hbounded⟩ := bounded_of_ok h
  refine ⟨fun v hv => ?_, fun v hv => valid_converted hdefs hconverts hv, providerSchema_self h,
    fun start hstart node hreach => ⟨fun hcycle => ?_, ?_⟩, fun start hstart path hchain => ?_,
    fun path hchain => ?_⟩
  · rw [IsValid, definitions_erase]
    exact valid_erase hdefs hconverts hv
  · -- going round the cycle, a path would be longer than they are
    obtain ⟨path, hchain, hlength⟩ :=
      exists_chain_of_cycle hcycle rounds start (Relation.TransGen.trans_right hreach hcycle)
    exact absurd (hbounded start hstart path hchain).1 (by omega)
  · obtain ⟨path, hchain, hlast⟩ := List.exists_isChain_cons_of_relationReflTransGen hreach
    exact (hbounded start hstart path hchain).2.2 node (hlast ▸ List.getLast_mem _)
  · have hcontainers := (hbounded start hstart path hchain).2.1
    omega
  · have hcontainers := (hbounded schema (List.mem_cons_self ..) path hchain).2.1
    rw [List.countP_cons, if_pos (isContainer_of_ok h)] at hcontainers
    omega

/-- A schema with a reference, a constant and a keyword on strings. -/
def sampleSchema : Json :=
  .obj [("title".toList, .str "Sample".toList), ("type".toList, .str "object".toList),
    ("properties".toList, .obj
      [("name".toList, .obj [("$ref".toList, .str "#/$defs/Name".toList)]),
        ("kind".toList, .obj [("const".toList, .str "fact".toList), ("type".toList, .str "string".toList)])]),
    ("additionalProperties".toList, .bool false),
    ("$defs".toList, .obj
      [("Name".toList, .obj [("type".toList, .str "string".toList), ("minLength".toList, .int 1)])])]

def sampleResult : Json :=
  .obj [("type".toList, .str "object".toList),
    ("properties".toList, .obj
      [("name".toList, .obj [("$ref".toList, .str "#/$defs/Name".toList)]),
        ("kind".toList, .obj
          [("type".toList, .str "string".toList), ("enum".toList, .arr [.str "fact".toList])])]),
    ("additionalProperties".toList, .bool false),
    ("$defs".toList, .obj [("Name".toList, .obj [("type".toList, .str "string".toList)])]),
    ("required".toList, .arr [.str "name".toList, .str "kind".toList])]

/-- No float is whole, every text has every format, and patterns are texts. -/
def sampleDialect : Dialect where
  same := fun x y => x = y
  isWhole := fun _ => False
  isFormat := fun _ _ => True
  isMatch := fun pattern s => pattern = .str s

/-- The sample is accepted. -/
theorem providerSchema_sample : providerSchema sampleSchema = .ok sampleResult := rfl

/-- The theorem applies to the sample. -/
theorem provider_schema_exact_sample :
    (∀ v, IsValid sampleDialect sampleResult v → IsValid sampleDialect (erase sampleSchema) v)
      ∧ (∀ v, IsValidCarryingAll sampleDialect sampleSchema v → IsValid sampleDialect sampleResult v)
      ∧ providerSchema sampleResult = .ok sampleResult := by
  obtain ⟨hsound, hcomplete, hself, -⟩ :=
    (provider_schema_exact sampleDialect sampleSchema).2 sampleResult providerSchema_sample
  exact ⟨hsound, hcomplete, hself⟩

end Polymind.Llm.AzureSchema
