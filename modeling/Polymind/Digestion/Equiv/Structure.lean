import Polymind.Digestion.Planning
import Polymind.Lib.Except

/-!
# The structural map is a tree

What `_structure` keeps while it adds units and records blocks.  `Grown` is the shape of the list of
units: the root first, every other unit after its parent and listed there at its own order.

* `assemble_grown`: the units of a structural map are grown;
* `structuralTree_of_grown`: `StructuralMap.tree` accepts grown units, so that its check never
  rejects what `_structure` assembles;
* `assemble_owned`: the units own every block once.
-/

namespace Polymind.Digestion

open Json Documents

variable {U : Type} [DecidableEq U]

/-! ### Looking units up -/

/-- The ids of some units. -/
def idsOfUnits (nodes : List (StructuralUnit U)) : List U := nodes.map StructuralUnit.structuralUnitId

theorem unitById_mem {nodes : List (StructuralUnit U)} {key : U} {u : StructuralUnit U}
    (h : unitById nodes key = some u) : u ∈ nodes ∧ u.structuralUnitId = key := by
  refine ⟨List.mem_of_find?_eq_some h, ?_⟩
  have := List.find?_some h
  simpa using this

theorem unitById_eq_none {nodes : List (StructuralUnit U)} {key : U} :
    unitById nodes key = none ↔ key ∉ idsOfUnits nodes := by
  simp [unitById, idsOfUnits]

/-- With distinct ids a unit is found by its id. -/
theorem unitById_of_mem {nodes : List (StructuralUnit U)} (hnd : (idsOfUnits nodes).Nodup)
    {u : StructuralUnit U} (hu : u ∈ nodes) : unitById nodes u.structuralUnitId = some u := by
  cases hfind : unitById nodes u.structuralUnitId with
  | none => exact absurd (List.mem_map_of_mem hu) (unitById_eq_none.mp hfind)
  | some v =>
    obtain ⟨hv, hid⟩ := unitById_mem hfind
    rw [List.inj_on_of_nodup_map hnd hv hu hid]

/-! ### Grown lists of units -/

/-- The root comes first, and every other unit after its parent, which lists it at its order. -/
structure Grown (root : U) (nodes : List (StructuralUnit U)) : Prop where
  nodup : (idsOfUnits nodes).Nodup
  first : ∃ r, nodes[0]? = some r ∧ r.structuralUnitId = root ∧ r.parentId = none
    ∧ r.kind = .document
  parent : ∀ i n, nodes[i + 1]? = some n → ∃ j p, j ≤ i ∧ nodes[j]? = some p
    ∧ n.parentId = some p.structuralUnitId ∧ n.structuralUnitId ∈ p.childIds
  child : ∀ p ∈ nodes, ∀ i c, p.childIds[i]? = some c → ∃ n ∈ nodes,
    n.structuralUnitId = c ∧ n.parentId = some p.structuralUnitId ∧ n.order = i

/-- Two units with one place in the tree. -/
def SamePlace (m n : StructuralUnit U) : Prop :=
  m.structuralUnitId = n.structuralUnitId ∧ m.parentId = n.parentId ∧ m.childIds = n.childIds
    ∧ m.order = n.order ∧ m.kind = n.kind

omit [DecidableEq U] in
theorem idsOfUnits_map {f : StructuralUnit U → StructuralUnit U}
    (hf : ∀ n, (f n).structuralUnitId = n.structuralUnitId) (nodes : List (StructuralUnit U)) :
    idsOfUnits (nodes.map f) = idsOfUnits nodes := by
  rw [idsOfUnits, List.map_map, idsOfUnits]
  exact List.map_congr_left fun n _ => hf n

omit [DecidableEq U] in
/-- Rewriting units without moving them. -/
theorem Grown.map {root : U} {nodes : List (StructuralUnit U)} (h : Grown root nodes)
    {f : StructuralUnit U → StructuralUnit U} (hf : ∀ n, SamePlace (f n) n) :
    Grown root (nodes.map f) := by
  refine ⟨?_, ?_, ?_, ?_⟩
  · rw [idsOfUnits_map fun n => (hf n).1]
    exact h.nodup
  · obtain ⟨r, hr, hid, hparent, hkind⟩ := h.first
    refine ⟨f r, by rw [List.getElem?_map, hr]; rfl, ?_, ?_, ?_⟩
    · rw [(hf r).1, hid]
    · rw [(hf r).2.1, hparent]
    · rw [(hf r).2.2.2.2, hkind]
  · intro i n hn
    rw [List.getElem?_map, Option.map_eq_some_iff] at hn
    obtain ⟨n, hn, rfl⟩ := hn
    obtain ⟨j, p, hj, hp, hparent, hmem⟩ := h.parent i n hn
    refine ⟨j, f p, hj, by rw [List.getElem?_map, hp]; rfl, ?_, ?_⟩
    · rw [(hf n).2.1, (hf p).1, hparent]
    · rw [(hf n).1, (hf p).2.2.1]
      exact hmem
  · intro p hp i c hc
    obtain ⟨p, hmem, rfl⟩ := List.mem_map.mp hp
    rw [(hf p).2.2.1] at hc
    obtain ⟨n, hn, hid, hparent, horder⟩ := h.child p hmem i c hc
    refine ⟨f n, List.mem_map_of_mem hn, ?_, ?_, ?_⟩
    · rw [(hf n).1, hid]
    · rw [(hf n).2.1, (hf p).1, hparent]
    · rw [(hf n).2.2.2.1, horder]

theorem samePlace_modify (key : U) {f : StructuralUnit U → StructuralUnit U}
    (hf : ∀ n, SamePlace (f n) n) (n : StructuralUnit U) :
    SamePlace (if n.structuralUnitId = key then f n else n) n := by
  split
  · exact hf n
  · exact ⟨rfl, rfl, rfl, rfl, rfl⟩

theorem samePlace_recordBlock (unit : TextUnit U) (block : Block U) (n : StructuralUnit U) :
    SamePlace (recordBlock unit block n) n :=
  ⟨rfl, rfl, rfl, rfl, rfl⟩

omit [DecidableEq U] in
theorem grown_rootUnit (root : U) : Grown root [rootUnit root] := by
  refine ⟨by simp [idsOfUnits], ⟨rootUnit root, rfl, rfl, rfl, rfl⟩, ?_, ?_⟩
  · intro i n hn
    simp at hn
  · intro p hp i c hc
    rw [List.mem_singleton] at hp
    subst hp
    simp [rootUnit] at hc

/-- The rewriting of the parent in `addUnit`. -/
def listChild (parent child : U) (n : StructuralUnit U) : StructuralUnit U :=
  if n.structuralUnitId = parent then { n with childIds := n.childIds ++ [child] } else n

@[simp] theorem listChild_id (parent child : U) (n : StructuralUnit U) :
    (listChild parent child n).structuralUnitId = n.structuralUnitId := by
  unfold listChild
  split <;> rfl

@[simp] theorem listChild_parentId (parent child : U) (n : StructuralUnit U) :
    (listChild parent child n).parentId = n.parentId := by
  unfold listChild
  split <;> rfl

@[simp] theorem listChild_order (parent child : U) (n : StructuralUnit U) :
    (listChild parent child n).order = n.order := by
  unfold listChild
  split <;> rfl

@[simp] theorem listChild_kind (parent child : U) (n : StructuralUnit U) :
    (listChild parent child n).kind = n.kind := by
  unfold listChild
  split <;> rfl

@[simp] theorem listChild_blockIds (parent child : U) (n : StructuralUnit U) :
    (listChild parent child n).blockIds = n.blockIds := by
  unfold listChild
  split <;> rfl

theorem childIds_subset_listChild (parent child : U) (n : StructuralUnit U) :
    n.childIds ⊆ (listChild parent child n).childIds := by
  unfold listChild
  split
  · exact List.subset_append_left _ _
  · exact List.Subset.refl _

/-- What `addUnit` does: nothing if the unit is there, and otherwise it lists the unit in its parent
and appends it. -/
theorem addUnit_ok {nodes nodes' : List (StructuralUnit U)} {parent : U} {unit : StructuralUnit U}
    (h : addUnit nodes parent unit = .ok nodes') :
    (unit.structuralUnitId ∈ idsOfUnits nodes ∧ nodes' = nodes) ∨
      (unit.structuralUnitId ∉ idsOfUnits nodes ∧ ∃ p, unitById nodes parent = some p
        ∧ nodes' = nodes.map (listChild parent unit.structuralUnitId)
          ++ [{ unit with parentId := some parent, order := p.childIds.length }]) := by
  unfold addUnit at h
  split at h
  · rename_i hsome
    rw [Option.isSome_iff_ne_none, Ne, unitById_eq_none, not_not] at hsome
    exact .inl ⟨hsome, (Except.ok.inj h).symm⟩
  · rename_i hnone
    rw [Bool.not_eq_true, Option.isSome_eq_false_iff, Option.isNone_iff_eq_none,
      unitById_eq_none] at hnone
    split at h
    · cases h
    · rename_i p hp
      exact .inr ⟨hnone, p, hp, (Except.ok.inj h).symm⟩

/-- A unit appended below its parent. -/
theorem Grown.append {root : U} {nodes : List (StructuralUnit U)} (h : Grown root nodes)
    (unit : StructuralUnit U) {p : StructuralUnit U} (hp : p ∈ nodes) (hnew : unit.structuralUnitId ∉ idsOfUnits nodes)
    (hparent : unit.parentId = some p.structuralUnitId) (horder : unit.order = p.childIds.length)
    (hchildren : unit.childIds = []) :
    Grown root (nodes.map (listChild p.structuralUnitId unit.structuralUnitId) ++ [unit]) := by
  have hlisted : (listChild p.structuralUnitId unit.structuralUnitId p).childIds
      = p.childIds ++ [unit.structuralUnitId] := by
    simp [listChild]
  refine ⟨?_, ?_, ?_, ?_⟩
  · rw [idsOfUnits, List.map_append, ← idsOfUnits, idsOfUnits_map (listChild_id _ _),
      List.nodup_append]
    refine ⟨h.nodup, List.nodup_singleton _, ?_⟩
    intro k hk k' hk' he
    rw [List.map_singleton, List.mem_singleton] at hk'
    exact hnew (hk' ▸ he ▸ hk)
  · obtain ⟨r, hr, hid, hrparent, hkind⟩ := h.first
    refine ⟨listChild p.structuralUnitId unit.structuralUnitId r, ?_, by simpa using hid,
      by simpa using hrparent, by simpa using hkind⟩
    have hlt : 0 < nodes.length := (List.getElem?_eq_some_iff.mp hr).1
    rw [List.getElem?_append_left (by simpa using hlt), List.getElem?_map, hr]
    rfl
  · intro i n hn
    rcases Nat.lt_trichotomy (i + 1) nodes.length with hlt | heq | hgt
    · -- an old unit keeps its parent
      rw [List.getElem?_append_left (by simpa using hlt), List.getElem?_map,
        Option.map_eq_some_iff] at hn
      obtain ⟨n, hn, rfl⟩ := hn
      obtain ⟨j, q, hj, hq, hnq, hmem⟩ := h.parent i n hn
      refine ⟨j, listChild p.structuralUnitId unit.structuralUnitId q, hj, ?_, by simpa using hnq, ?_⟩
      · have hjlt : j < nodes.length := (List.getElem?_eq_some_iff.mp hq).1
        rw [List.getElem?_append_left (by simpa using hjlt), List.getElem?_map, hq]
        rfl
      · rw [listChild_id]
        exact childIds_subset_listChild _ _ q hmem
    · -- the added unit is listed by its parent
      rw [List.getElem?_append_right (by simp [heq]), List.length_map, heq, Nat.sub_self] at hn
      obtain rfl : unit = n := by simpa using hn
      obtain ⟨j, hjlt, hj⟩ := List.getElem_of_mem hp
      refine ⟨j, listChild p.structuralUnitId unit.structuralUnitId p, by omega, ?_,
        by simpa using hparent, ?_⟩
      · rw [List.getElem?_append_left (by simpa using hjlt), List.getElem?_map,
          List.getElem?_eq_getElem hjlt, hj]
        rfl
      · rw [hlisted]
        exact List.mem_append_right _ (List.mem_singleton.mpr rfl)
    · rw [List.getElem?_eq_none (by simp; omega)] at hn
      cases hn
  · intro q hq i c hc
    rcases List.mem_append.mp hq with hq | hq
    · obtain ⟨q, hqmem, rfl⟩ := List.mem_map.mp hq
      have hold : q.childIds[i]? = some c →
          ∃ n ∈ nodes.map (listChild p.structuralUnitId unit.structuralUnitId) ++ [unit],
            n.structuralUnitId = c
              ∧ n.parentId = some (listChild p.structuralUnitId unit.structuralUnitId q).structuralUnitId
              ∧ n.order = i := by
        intro hc
        obtain ⟨n, hn, hid, hnq, hni⟩ := h.child q hqmem i c hc
        exact ⟨_, List.mem_append_left _ (List.mem_map_of_mem hn), by simpa using hid,
          by simpa using hnq, by simpa using hni⟩
      by_cases hqp : q.structuralUnitId = p.structuralUnitId
      · obtain rfl : q = p := List.inj_on_of_nodup_map h.nodup hqmem hp hqp
        rw [hlisted] at hc
        rcases Nat.lt_or_ge i q.childIds.length with hlt | hge
        · exact hold (by rwa [List.getElem?_append_left hlt] at hc)
        · -- its last child is the added unit
          rw [List.getElem?_append_right hge, List.getElem?_singleton] at hc
          split at hc
          · rename_i hi
            exact ⟨unit, by simp, Option.some.inj hc, by simpa using hparent, by omega⟩
          · cases hc
      · exact hold (by simpa only [listChild, if_neg hqp] using hc)
    · rw [List.mem_singleton] at hq
      subst hq
      rw [hchildren] at hc
      simp at hc

theorem Grown.add {root : U} {nodes nodes' : List (StructuralUnit U)} (h : Grown root nodes)
    {parent : U} {unit : StructuralUnit U} (hchildren : unit.childIds = [])
    (hadd : addUnit nodes parent unit = .ok nodes') : Grown root nodes' := by
  obtain ⟨-, rfl⟩ | ⟨hnew, p, hp, rfl⟩ := addUnit_ok hadd
  · exact h
  · obtain ⟨hmem, rfl⟩ := unitById_mem hp
    exact h.append { unit with parentId := some p.structuralUnitId, order := p.childIds.length } hmem
      hnew rfl rfl hchildren

/-! ### The walk of `StructuralMap.tree` -/

/-- The children of a grown unit pass the check of `StructuralMap.tree`. -/
theorem childrenAgree_of {units : List (StructuralUnit U)} {key : U} {children : List U} :
    ∀ index, (∀ i c, children[i]? = some c → ∃ n, unitById units c = some n
        ∧ n.parentId = some key ∧ n.order = index + i) →
      childrenAgree units key index children = true := by
  induction children with
  | nil => intro index _; rfl
  | cons child children ih =>
    intro index h
    obtain ⟨n, hn, hparent, horder⟩ := h 0 child rfl
    rw [childrenAgree, hn, Bool.and_eq_true]
    refine ⟨by simp [hparent, horder], ih (index + 1) fun i c hc => ?_⟩
    obtain ⟨m, hm, hmparent, hmorder⟩ := h (i + 1) c hc
    exact ⟨m, hm, hmparent, by omega⟩

theorem Grown.childrenAgree {root : U} {nodes : List (StructuralUnit U)} (h : Grown root nodes)
    {p : StructuralUnit U} (hp : p ∈ nodes) :
    childrenAgree nodes p.structuralUnitId 0 p.childIds = true := by
  refine childrenAgree_of 0 fun i c hc => ?_
  obtain ⟨n, hn, rfl, hparent, horder⟩ := h.child p hp i c hc
  exact ⟨n, unitById_of_mem h.nodup hn, hparent, by omega⟩

omit [DecidableEq U] in
/-- A child of a grown unit has the unit as its parent. -/
theorem Grown.parent_of_mem {root : U} {nodes : List (StructuralUnit U)} (h : Grown root nodes)
    {p n : StructuralUnit U} (hp : p ∈ nodes) (hn : n ∈ nodes)
    (hmem : n.structuralUnitId ∈ p.childIds) : n.parentId = some p.structuralUnitId := by
  obtain ⟨i, hi, hget⟩ := List.getElem_of_mem hmem
  obtain ⟨m, hm, hid, hparent, -⟩ := h.child p hp i _ (List.getElem?_eq_getElem hi)
  rw [← List.inj_on_of_nodup_map h.nodup hm hn (hid.trans hget)]
  exact hparent

omit [DecidableEq U] in
/-- The children of a grown unit are distinct: each stands at its own order. -/
theorem Grown.childIds_nodup {root : U} {nodes : List (StructuralUnit U)} (h : Grown root nodes)
    {p : StructuralUnit U} (hp : p ∈ nodes) : p.childIds.Nodup := by
  rw [List.nodup_iff_getElem?_ne_getElem?]
  intro i j hij hj heq
  obtain ⟨n, hn, hid, -, horder⟩ := h.child p hp j _ (List.getElem?_eq_getElem hj)
  obtain ⟨m, hm, hmid, -, hmorder⟩ := h.child p hp i _ (heq.trans (List.getElem?_eq_getElem hj))
  rw [List.inj_on_of_nodup_map h.nodup hm hn (hmid.trans hid.symm)] at hmorder
  omega

omit [DecidableEq U] in
/-- The parent of a grown unit stands before it. -/
theorem Grown.before {root : U} {before after : List (StructuralUnit U)} {u : StructuralUnit U}
    (h : Grown root (before ++ u :: after)) {q : U} (hq : u.parentId = some q) :
    q ∈ idsOfUnits before := by
  have hu : (before ++ u :: after)[before.length]? = some u := by simp
  cases hlen : before.length with
  | zero =>
    obtain ⟨r, hr, -, hparent, -⟩ := h.first
    rw [← hlen, hu, Option.some.injEq] at hr
    rw [hr, hparent] at hq
    cases hq
  | succ i =>
    rw [hlen] at hu
    obtain ⟨j, p, hj, hp, hparent, -⟩ := h.parent i u hu
    rw [hq, Option.some.injEq] at hparent
    rw [List.getElem?_append_left (by omega)] at hp
    exact hparent ▸ List.mem_map_of_mem (List.mem_of_getElem? hp)

omit [DecidableEq U] in
/-- The children of a grown unit stand after it. -/
theorem Grown.after {root : U} {before after : List (StructuralUnit U)} {u v : StructuralUnit U}
    (h : Grown root (before ++ u :: after)) (hv : v ∈ before ++ u :: after)
    (hparent : v.parentId = some u.structuralUnitId) : v ∈ after := by
  by_contra hafter
  have hv : v ∈ before ++ [u] := by
    simp only [List.mem_append, List.mem_cons, List.not_mem_nil, or_false] at hv ⊢
    tauto
  obtain ⟨l, m, hsplit⟩ := List.append_of_mem hv
  have hunits : before ++ u :: after = l ++ v :: (m ++ after) := by
    rw [← List.singleton_append, ← List.append_assoc, hsplit]
    simp
  have hmem : u.structuralUnitId ∈ idsOfUnits l := by
    rw [hunits] at h
    exact h.before hparent
  have hu : u ∈ v :: m := by
    have hlast : (before ++ [u]).getLast? = (l ++ v :: m).getLast? := by rw [hsplit]
    rw [List.getLast?_append_of_ne_nil _ (by simp), List.getLast?_append_of_ne_nil _ (by simp)] at hlast
    exact List.mem_of_getLast? hlast.symm
  have hnd := h.nodup
  rw [hunits, ← List.cons_append, ← List.append_assoc, idsOfUnits, List.map_append, List.map_append,
    List.append_assoc, List.nodup_append] at hnd
  exact hnd.2.2 _ hmem _ (List.mem_append_left _ (List.mem_map_of_mem hu)) rfl

omit [DecidableEq U] in
/-- The children of a grown unit are the units that name it as their parent. -/
theorem Grown.mem_childIds {root : U} {nodes : List (StructuralUnit U)} (h : Grown root nodes)
    {u : StructuralUnit U} (hu : u ∈ nodes) (c : U) :
    c ∈ u.childIds ↔ ∃ v ∈ nodes, v.structuralUnitId = c ∧ v.parentId = some u.structuralUnitId := by
  constructor
  · intro hc
    obtain ⟨i, hi, rfl⟩ := List.getElem_of_mem hc
    obtain ⟨v, hv, hid, hparent, -⟩ := h.child u hu i _ (List.getElem?_eq_getElem hi)
    exact ⟨v, hv, hid, hparent⟩
  · rintro ⟨v, hv, rfl, hparent⟩
    obtain ⟨i, hi, rfl⟩ := List.getElem_of_mem hv
    cases i with
    | zero =>
      obtain ⟨r, hr, -, hroot, -⟩ := h.first
      rw [List.getElem?_eq_getElem hi, Option.some.injEq] at hr
      rw [hr, hroot] at hparent
      cases hparent
    | succ i =>
      obtain ⟨j, p, -, hp, hpparent, hmem⟩ := h.parent i _ (List.getElem?_eq_getElem hi)
      rw [hparent, Option.some.injEq] at hpparent
      rw [List.inj_on_of_nodup_map h.nodup hu (List.mem_of_getElem? hp) hpparent]
      exact hmem

/-- What the walk keeps: no key is met twice, since it is pushed with its only parent. -/
structure Walking (root : U) (nodes : List (StructuralUnit U)) (stack visited : List U) : Prop where
  nodup : (stack ++ visited).Nodup
  known : ∀ k ∈ stack ++ visited, k ∈ idsOfUnits nodes
  start : root ∈ stack ++ visited
  parent : ∀ n ∈ nodes, n.structuralUnitId ∈ stack ++ visited → ∀ q, n.parentId = some q →
    q ∈ visited
  child : ∀ p ∈ nodes, p.structuralUnitId ∈ visited → p.childIds ⊆ stack ++ visited

omit [DecidableEq U] in
/-- One round of the walk. -/
theorem Walking.step {root : U} {nodes : List (StructuralUnit U)} (h : Grown root nodes)
    {key : U} {stack visited : List U} (hw : Walking root nodes (key :: stack) visited)
    {p : StructuralUnit U} (hp : p ∈ nodes) (hid : p.structuralUnitId = key) :
    Walking root nodes (p.childIds.reverse ++ stack) (key :: visited) := by
  have hperm : (p.childIds.reverse ++ stack ++ key :: visited).Perm
      (p.childIds ++ (key :: stack ++ visited)) := by
    rw [List.append_assoc]
    refine (List.reverse_perm _).append ?_
    exact List.perm_middle
  have hkey : key ∉ visited := by
    have := hw.nodup
    rw [List.cons_append, List.nodup_cons] at this
    exact fun hv => this.1 (List.mem_append_right _ hv)
  refine ⟨?_, ?_, ?_, ?_, ?_⟩
  · rw [hperm.nodup_iff, List.nodup_append]
    refine ⟨h.childIds_nodup hp, hw.nodup, ?_⟩
    rintro c hc d hd rfl
    -- a child met before would have had its parent visited before
    obtain ⟨n, hn, rfl⟩ := List.mem_map.mp (hw.known _ hd)
    have hparent := h.parent_of_mem hp hn hc
    exact hkey (hid ▸ hw.parent n hn hd _ hparent)
  · intro k hk
    rcases List.mem_append.mp (hperm.subset hk) with hk | hk
    · obtain ⟨i, hi, rfl⟩ := List.getElem_of_mem hk
      obtain ⟨n, hn, hnid, -⟩ := h.child p hp i _ (List.getElem?_eq_getElem hi)
      exact hnid ▸ List.mem_map_of_mem hn
    · exact hw.known k hk
  · exact hperm.symm.subset (List.mem_append_right _ hw.start)
  · intro n hn hk q hq
    rcases List.mem_append.mp (hperm.subset hk) with hk | hk
    · rw [h.parent_of_mem hp hn hk, hid, Option.some.injEq] at hq
      exact hq ▸ List.mem_cons_self ..
    · exact List.mem_cons_of_mem _ (hw.parent n hn hk q hq)
  · intro q hq hmem
    rcases List.mem_cons.mp hmem with hqk | hv
    · rw [List.inj_on_of_nodup_map h.nodup hq hp (hqk.trans hid.symm)]
      exact fun c hc => hperm.symm.subset (List.mem_append_left _ hc)
    · exact fun c hc => hperm.symm.subset (List.mem_append_right _ (hw.child q hq hv hc))

omit [DecidableEq U] in
theorem length_idsOfUnits (nodes : List (StructuralUnit U)) : (idsOfUnits nodes).length = nodes.length :=
  List.length_map ..

/-- The walk ends, with as many rounds left as there are units to visit. -/
theorem Walking.treeWalk {root : U} {nodes : List (StructuralUnit U)} (h : Grown root nodes) :
    ∀ rounds stack visited, Walking root nodes stack visited → nodes.length < rounds + visited.length →
      ∃ all, treeWalk nodes rounds stack visited = some all ∧ Walking root nodes [] all := by
  intro rounds
  induction rounds with
  | zero =>
    intro stack visited hw hlt
    have hnd : visited.Nodup := (List.nodup_append.mp hw.nodup).2.1
    have hle := hnd.length_le_of_subset fun k hk => hw.known k (List.mem_append_right _ hk)
    rw [length_idsOfUnits] at hle
    omega
  | succ rounds ih =>
    intro stack visited hw hlt
    cases stack with
    | nil => exact ⟨visited, rfl, hw⟩
    | cons key stack =>
      have hkey : key ∉ visited := by
        have := hw.nodup
        rw [List.cons_append, List.nodup_cons] at this
        exact fun hv => this.1 (List.mem_append_right _ hv)
      obtain ⟨p, hp, rfl⟩ := List.mem_map.mp (hw.known key (by simp))
      rw [Digestion.treeWalk, if_neg hkey, unitById_of_mem h.nodup hp]
      simp only [h.childrenAgree hp, if_true]
      refine ih _ _ (hw.step h hp rfl) ?_
      rw [List.length_cons]
      omega

/-- `StructuralMap.tree` accepts grown units. -/
theorem structuralTree_of_grown {root : U} {nodes : List (StructuralUnit U)} (h : Grown root nodes) :
    structuralTree nodes = true := by
  obtain ⟨r, hr, hid, hparent, hkind⟩ := h.first
  cases nodes with
  | nil => cases hr
  | cons first rest =>
    obtain rfl : first = r := by simpa using hr
    have hstart : Walking root (first :: rest) [first.structuralUnitId] [] := by
      refine ⟨by simp, by simp [idsOfUnits], by simp [hid], ?_, by simp⟩
      intro n hn hk q hq
      rw [List.append_nil, List.mem_singleton] at hk
      rw [List.inj_on_of_nodup_map h.nodup hn (List.mem_cons_self ..) hk, hparent] at hq
      cases hq
    obtain ⟨all, hall, hw⟩ := hstart.treeWalk h ((first :: rest).length + 1) _ _ (by simp)
    -- every unit is visited: its parent comes earlier in the list
    have hevery : ∀ (i : Nat) (n : StructuralUnit U), (first :: rest)[i]? = some n → n.structuralUnitId ∈ all := by
      intro i
      induction i using Nat.strong_induction_on with
      | _ i ih =>
        intro n hn
        cases i with
        | zero =>
          obtain rfl : first = n := by simpa using hn
          simpa [hid] using hw.start
        | succ i =>
          obtain ⟨j, p, hj, hp, -, hmem⟩ := h.parent i n hn
          have hpall := ih j (by omega) p hp
          simpa using hw.child p (List.mem_of_getElem? hp) hpall hmem
    have hsub : idsOfUnits (first :: rest) ⊆ all := by
      intro k hk
      obtain ⟨n, hn, rfl⟩ := List.mem_map.mp hk
      obtain ⟨i, hi, hget⟩ := List.getElem_of_mem hn
      exact hevery i n (hget ▸ List.getElem?_eq_getElem hi)
    have hlen : all.length = (first :: rest).length := by
      rw [← length_idsOfUnits]
      refine Nat.le_antisymm ?_ (h.nodup.length_le_of_subset hsub)
      have hnd : all.Nodup := by simpa using hw.nodup
      exact hnd.length_le_of_subset fun k hk => hw.known k (by simpa using hk)
    have hnd : ((first :: rest).map StructuralUnit.structuralUnitId).Nodup := h.nodup
    simp only [structuralTree, hnd, hparent, hkind, hall, hlen, decide_true, Option.isNone_none,
      beq_self_eq_true, Bool.and_self]

/-! ### Blocks -/

/-- The blocks some units own. -/
def ownedBlocks (nodes : List (StructuralUnit U)) : List U := nodes.flatMap StructuralUnit.blockIds

theorem ownedBlocks_add {nodes nodes' : List (StructuralUnit U)} {parent : U}
    {unit : StructuralUnit U} (hblocks : unit.blockIds = [])
    (h : addUnit nodes parent unit = .ok nodes') : ownedBlocks nodes' = ownedBlocks nodes := by
  obtain ⟨-, rfl⟩ | ⟨-, p, -, rfl⟩ := addUnit_ok h
  · rfl
  · simp [ownedBlocks, List.flatMap_map, hblocks]

theorem idsOfUnits_add {nodes nodes' : List (StructuralUnit U)} {parent : U}
    {unit : StructuralUnit U} (h : addUnit nodes parent unit = .ok nodes') :
    idsOfUnits nodes ⊆ idsOfUnits nodes' ∧ unit.structuralUnitId ∈ idsOfUnits nodes' := by
  obtain ⟨hmem, rfl⟩ | ⟨-, p, -, rfl⟩ := addUnit_ok h
  · exact ⟨List.Subset.refl _, hmem⟩
  · rw [idsOfUnits, idsOfUnits, List.map_append, ← idsOfUnits, ← idsOfUnits,
      idsOfUnits_map (listChild_id _ _)]
    exact ⟨List.subset_append_left _ _, by simp⟩

/-- A block is recorded in one unit. -/
theorem ownedBlocks_recordBlock {nodes : List (StructuralUnit U)} (hnd : (idsOfUnits nodes).Nodup)
    {key : U} (hkey : key ∈ idsOfUnits nodes) (unit : TextUnit U) (block : Block U) :
    (ownedBlocks (modifyUnit key (recordBlock unit block) nodes)).Perm
      (ownedBlocks nodes ++ [block.blockId]) := by
  induction nodes with
  | nil => simp [idsOfUnits] at hkey
  | cons n nodes ih =>
    rw [idsOfUnits, List.map_cons, List.nodup_cons, ← idsOfUnits] at hnd
    by_cases hn : n.structuralUnitId = key
    · -- no other unit has the id
      have hrest : modifyUnit key (recordBlock unit block) nodes = nodes := by
        rw [modifyUnit]
        conv_rhs => rw [← List.map_id nodes]
        refine List.map_congr_left fun m hm => ?_
        rw [if_neg, id]
        rintro rfl
        exact hnd.1 (hn ▸ List.mem_map_of_mem hm)
      have hcons : modifyUnit key (recordBlock unit block) (n :: nodes)
          = recordBlock unit block n :: modifyUnit key (recordBlock unit block) nodes := by
        simp [modifyUnit, hn]
      rw [hcons, hrest]
      simp only [ownedBlocks, List.flatMap_cons, recordBlock, List.append_assoc]
      exact List.Perm.append_left _ List.perm_append_comm
    · have hcons : modifyUnit key (recordBlock unit block) (n :: nodes)
          = n :: modifyUnit key (recordBlock unit block) nodes := by
        simp [modifyUnit, hn]
      have hkey : key ∈ idsOfUnits nodes := by
        rcases List.mem_cons.mp hkey with he | hm
        · exact absurd he.symm hn
        · exact hm
      rw [hcons]
      simp only [ownedBlocks, List.flatMap_cons, List.append_assoc]
      exact List.Perm.append_left _ (ih hnd.2 hkey)

/-! ### The loop of `_structure` -/

/-- What the loop over the blocks keeps; `done` are the blocks it has placed. -/
structure Placed (root : U) (done : List (TextUnit U × Block U)) (s : Layout U) : Prop where
  grown : Grown root s.nodes
  current : ∀ k, s.current = some k → k ∈ idsOfUnits s.nodes
  owned : (ownedBlocks s.nodes).Perm (done.map fun p => p.2.blockId)

section

variable {ids : Ids U} {a : ExtractionArtifact U} {heads : Dict U (Block U)} {root : U}
  {done : List (TextUnit U × Block U)}

theorem Placed.addUnit {s : Layout U} (h : Placed root done s) {parent : U}
    {unit : StructuralUnit U} {nodes : List (StructuralUnit U)}
    (hadd : addUnit s.nodes parent unit = .ok nodes) (hchildren : unit.childIds = [])
    (hblocks : unit.blockIds = []) :
    Placed root done ⟨nodes, some unit.structuralUnitId⟩ := by
  refine ⟨h.grown.add hchildren hadd, ?_, ?_⟩
  · intro k hk
    rw [← Option.some.inj hk]
    exact (idsOfUnits_add hadd).2
  · rw [ownedBlocks_add hblocks hadd]
    exact h.owned

theorem Placed.openSection {s t : Layout U} (h : Placed root done s) {block : Block U}
    (ht : openSection ids heads root s block = .ok t) : Placed root done t := by
  unfold Digestion.openSection at ht
  dsimp only at ht
  split at ht
  · cases ht
  · rename_i p hp
    rw [bind_eq_ok] at ht
    obtain ⟨nodes, hadd, ht⟩ := ht
    rw [← Except.ok.inj ht]
    exact h.addUnit hadd rfl rfl

theorem Placed.locate {s t : Layout U} (h : Placed root done s) {block : Block U}
    (ht : locate ids heads root s block = .ok t) : Placed root done t := by
  unfold Digestion.locate at ht
  split at ht
  · exact h.openSection ht
  split at ht
  · rename_i parent _
    split at ht
    · split at ht
      · rename_i hsome
        rw [← Except.ok.inj ht]
        refine ⟨h.grown, ?_, h.owned⟩
        intro k hk
        rw [← Option.some.inj hk]
        rw [Option.isSome_iff_ne_none, Ne, unitById_eq_none, not_not] at hsome
        exact hsome
      · cases ht
    · exact Except.ok.inj ht ▸ h
  · exact Except.ok.inj ht ▸ h

theorem Placed.ensureCurrent {s : Layout U} (h : Placed root done s) {current : U}
    {nodes : List (StructuralUnit U)} (ht : ensureCurrent ids a root s = .ok (current, nodes)) :
    Placed root done ⟨nodes, some current⟩ := by
  unfold Digestion.ensureCurrent at ht
  split at ht
  · rename_i k hk
    obtain ⟨rfl, rfl⟩ := Prod.mk.inj (Except.ok.inj ht)
    exact ⟨h.grown, fun k' hk' => h.current k' (hk.trans hk'), h.owned⟩
  · rw [bind_eq_ok] at ht
    obtain ⟨nodes', hadd, ht⟩ := ht
    obtain ⟨rfl, rfl⟩ := Prod.mk.inj (Except.ok.inj ht)
    exact h.addUnit hadd rfl rfl

/-- One round of the loop places one block. -/
theorem Placed.placeBlock {s t : Layout U} (h : Placed root done s) {p : TextUnit U × Block U}
    (ht : placeBlock ids a heads root s p = .ok t) : Placed root (done ++ [p]) t := by
  unfold Digestion.placeBlock at ht
  rw [bind_eq_ok] at ht
  obtain ⟨s', hs', ht⟩ := ht
  rw [bind_eq_ok] at ht
  obtain ⟨⟨current, nodes⟩, hcurrent, ht⟩ := ht
  have h' := (h.locate hs').ensureCurrent hcurrent
  have hmem : current ∈ idsOfUnits nodes := h'.current current rfl
  rw [← Except.ok.inj ht]
  have hplace := samePlace_modify current (samePlace_recordBlock p.1 p.2)
  refine ⟨h'.grown.map hplace, ?_, ?_⟩
  · intro k hk
    rw [← Option.some.inj hk]
    change current ∈ idsOfUnits (modifyUnit current _ nodes)
    rw [modifyUnit, idsOfUnits_map fun n => (hplace n).1]
    exact hmem
  · rw [List.map_append]
    refine (ownedBlocks_recordBlock h'.grown.nodup hmem p.1 p.2).trans ?_
    exact h'.owned.append_right _

end

/-! ### The assembled map -/

section

variable {ids : Ids U} {a : ExtractionArtifact U} {profile : DigestionProfile}
  {units : List (StructuralUnit U)}

/-- What `_structure` assembles is grown from its root and owns every block once. -/
theorem assemble_ok (h : assemble ids a profile = .ok units) :
    Grown (structureRoot ids a profile) units
      ∧ (ownedBlocks units).Perm ((inventory a).map fun p => p.2.blockId) := by
  unfold assemble at h
  dsimp only at h
  rw [bind_eq_ok] at h
  obtain ⟨-, -, h⟩ := h
  rw [bind_eq_ok] at h
  obtain ⟨s, hs, h⟩ := h
  rw [bind_eq_ok] at h
  obtain ⟨nodes, hnodes, h⟩ := h
  have hstart : Placed (structureRoot ids a profile) []
      ⟨[rootUnit (structureRoot ids a profile)], none⟩ :=
    ⟨grown_rootUnit _, fun k hk => by simp at hk, by simp [ownedBlocks, rootUnit]⟩
  have hplaced := foldlM_ok_prefix (Placed (structureRoot ids a profile)) hs hstart
    fun done p s t _ hP ht => hP.placeBlock ht
  have hnodes' : Grown (structureRoot ids a profile) nodes ∧ ownedBlocks nodes = ownedBlocks s.nodes := by
    unfold ensureChild at hnodes
    split at hnodes
    · cases hnodes
    split at hnodes
    · exact ⟨hplaced.grown.add rfl hnodes, ownedBlocks_add rfl hnodes⟩
    · rw [← Except.ok.inj hnodes]
      exact ⟨hplaced.grown, rfl⟩
  rw [← Except.ok.inj h]
  refine ⟨hnodes'.1.map (samePlace_modify _ fun n => ⟨rfl, rfl, rfl, rfl, rfl⟩), ?_⟩
  have howned : ∀ n : StructuralUnit U, (if n.structuralUnitId = structureRoot ids a profile then
      { n with sourceIds := a.units.map TextUnit.sourceId
               physicalPages := a.units.filterMap TextUnit.physicalPage } else n).blockIds
      = n.blockIds := by
    intro n
    split <;> rfl
  rw [ownedBlocks, modifyUnit, List.flatMap_map, List.flatMap_congr fun n _ => howned n, ← ownedBlocks,
    hnodes'.2]
  exact hplaced.owned

/-- The check of `StructuralMap.tree` never rejects what `_structure` assembles. -/
theorem structureOf_eq_ok_iff {ref : ObjectRef U} {m : StructuralMap U} :
    structureOf ids a ref profile = .ok m ↔ ∃ units, assemble ids a profile = .ok units
      ∧ m = ⟨ref, a.document.documentVersionId, profile.digest ids, units⟩ := by
  unfold structureOf
  rw [bind_eq_ok]
  constructor
  · rintro ⟨units, hunits, h⟩
    rw [if_pos (structuralTree_of_grown (assemble_ok hunits).1)] at h
    exact ⟨units, hunits, (Except.ok.inj h).symm⟩
  · rintro ⟨units, hunits, rfl⟩
    refine ⟨units, hunits, ?_⟩
    rw [if_pos (structuralTree_of_grown (assemble_ok hunits).1)]

end

end Polymind.Digestion
