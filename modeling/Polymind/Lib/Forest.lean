import Mathlib.Algebra.BigOperators.Group.List.Basic
import Mathlib.Algebra.Ring.Nat
import Mathlib.Data.List.Nodup
import Mathlib.Data.List.Pairwise
import Mathlib.Logic.Relation

/-!
# Forests built bottom up

A forest is given as the list of its inner nodes, each a key with the keys of its children.
`Builds leaves nodes free` says that the nodes were added one at a time over the leaves, each of
them taking its children from the keys that had no parent yet; `free` is what has no parent in the
end.

* `Builds.perm`: a key is either the child of one node or free;
* `Builds.induction`: what holds of the leaves and passes from children to parents holds of all;
* `Builds.reaches`: every key is reached from a free one;
* `Builds.sum`: a quantity that a node takes from its children and itself is, over the free keys,
  the sum over all.
-/

namespace Polymind.Forest

universe u

open scoped List

variable {K : Type u}

/-- The keys of some nodes. -/
def keys (nodes : List (K × List K)) : List K := nodes.map Prod.fst

/-- The children of some nodes. -/
def children (nodes : List (K × List K)) : List K := nodes.flatMap Prod.snd

/-- The nodes are built over the leaves one at a time, and leave `free` without a parent. -/
inductive Builds (leaves : List K) : List (K × List K) → List K → Prop
  | leaves : Builds leaves [] leaves
  | node {nodes : List (K × List K)} {free rest group : List K} {key : K}
      (built : Builds leaves nodes free) (split : free.Perm (group ++ rest)) (nonempty : group ≠ [])
      (fresh : key ∉ leaves ++ keys nodes) :
      Builds leaves (nodes ++ [(key, group)]) (key :: rest)

/-- A node and one of its children. -/
def Child (nodes : List (K × List K)) (parent child : K) : Prop :=
  ∃ group, (parent, group) ∈ nodes ∧ child ∈ group

namespace Builds

variable {leaves free : List K} {nodes : List (K × List K)}

theorem keys_append (nodes : List (K × List K)) (key : K) (group : List K) :
    keys (nodes ++ [(key, group)]) = keys nodes ++ [key] := by
  simp [keys]

theorem children_append (nodes : List (K × List K)) (key : K) (group : List K) :
    children (nodes ++ [(key, group)]) = children nodes ++ group := by
  simp [children]

/-- A key is either the child of one node or free. -/
theorem perm (h : Builds leaves nodes free) : children nodes ++ free ~ leaves ++ keys nodes := by
  induction h with
  | leaves => simp [children, keys]
  | @node nodes free rest group key built split nonempty fresh ih =>
    rw [children_append, keys_append]
    calc children nodes ++ group ++ key :: rest
        ~ key :: (children nodes ++ group ++ rest) := List.perm_middle
      _ = key :: (children nodes ++ (group ++ rest)) := by rw [List.append_assoc]
      _ ~ key :: (children nodes ++ free) := (split.symm.append_left _).cons _
      _ ~ key :: (leaves ++ keys nodes) := ih.cons _
      _ ~ leaves ++ keys nodes ++ [key] := (List.perm_append_singleton _ _).symm
      _ = leaves ++ (keys nodes ++ [key]) := by rw [List.append_assoc]

theorem nodup (h : Builds leaves nodes free) (hl : leaves.Nodup) : (leaves ++ keys nodes).Nodup := by
  induction h with
  | leaves => simpa [keys] using hl
  | @node nodes free rest group key built split nonempty fresh ih =>
    rw [keys_append, ← List.append_assoc, List.nodup_append]
    refine ⟨ih, List.nodup_singleton _, ?_⟩
    intro a ha b hb hab
    rw [List.mem_singleton] at hb
    exact fresh (hb ▸ hab ▸ ha)

/-- The children of distinct nodes are distinct, and none of them is free. -/
theorem children_nodup (h : Builds leaves nodes free) (hl : leaves.Nodup) :
    (children nodes ++ free).Nodup :=
  h.perm.nodup_iff.mpr (h.nodup hl)

theorem mem_children {key x : K} {group : List K} (hmem : (key, group) ∈ nodes) (hx : x ∈ group) :
    x ∈ children nodes :=
  List.mem_flatMap.mpr ⟨_, hmem, hx⟩

/-- A child comes from the leaves or the nodes. -/
theorem mem_of_child (h : Builds leaves nodes free) {key x : K} {group : List K}
    (hmem : (key, group) ∈ nodes) (hx : x ∈ group) : x ∈ leaves ++ keys nodes :=
  h.perm.subset (List.mem_append_left _ (mem_children hmem hx))

theorem group_nodup (h : Builds leaves nodes free) (hl : leaves.Nodup) {key : K} {group : List K}
    (hmem : (key, group) ∈ nodes) : group.Nodup := by
  have hflat := (List.nodup_append.mp (h.children_nodup hl)).1
  exact (List.nodup_flatMap.mp hflat).1 _ hmem

/-- What is free is the child of no node. -/
theorem free_not_child (h : Builds leaves nodes free) (hl : leaves.Nodup) {key x : K}
    {group : List K} (hmem : (key, group) ∈ nodes) (hx : x ∈ free) : x ∉ group := by
  intro hg
  exact (List.nodup_append.mp (h.children_nodup hl)).2.2 x (mem_children hmem hg) x hx rfl

/-- What is not free has a parent. -/
theorem exists_parent (h : Builds leaves nodes free) {x : K} (hx : x ∈ leaves ++ keys nodes)
    (hfree : x ∉ free) : ∃ node ∈ nodes, x ∈ node.2 := by
  rcases List.mem_append.mp (h.perm.symm.subset hx) with hchild | hchild
  · exact List.mem_flatMap.mp hchild
  · exact absurd hchild hfree

/-- Two nodes with a common child are one. -/
theorem parent_unique (h : Builds leaves nodes free) (hl : leaves.Nodup) {m n : K × List K}
    (hm : m ∈ nodes) (hn : n ∈ nodes) {x : K} (hxm : x ∈ m.2) (hxn : x ∈ n.2) : m = n := by
  have hflat := (List.nodup_append.mp (h.children_nodup hl)).1
  have hpairs : nodes.Pairwise fun m n => m.2.Disjoint n.2 := (List.nodup_flatMap.mp hflat).2
  have hsymm : Std.Symm fun m n : K × List K => m.2.Disjoint n.2 :=
    ⟨fun _ _ hd x hx hy => hd hy hx⟩
  by_contra hne
  exact hpairs.forall hm hn hne hxm hxn

theorem mem_of_free (h : Builds leaves nodes free) {x : K} (hx : x ∈ free) :
    x ∈ leaves ++ keys nodes :=
  h.perm.subset (List.mem_append_right _ hx)

/-- The last node is free. -/
theorem root_mem {root : K} (h : Builds leaves nodes [root]) (hne : nodes ≠ []) :
    root ∈ keys nodes := by
  generalize hfree : [root] = free at h
  cases h with
  | leaves => exact absurd rfl hne
  | node built split nonempty fresh =>
    obtain ⟨rfl, -⟩ := List.cons.inj hfree
    rw [keys_append]
    exact List.mem_append_right _ (List.mem_singleton.mpr rfl)

/-- The children of a node come before it. -/
theorem children_before (h : Builds leaves nodes free) :
    ∀ before key group after, nodes = before ++ (key, group) :: after →
      group ≠ [] ∧ ∀ x ∈ group, x ∈ leaves ++ keys before := by
  induction h with
  | leaves =>
    intro before key group after he
    simp at he
  | @node nodes free rest group key built split nonempty fresh ih =>
    intro before key' group' after he
    rcases List.append_eq_append_iff.mp he with ⟨as, hb, ha⟩ | ⟨bs, hb, ha⟩
    · -- the node is the one added last
      cases as with
      | nil =>
        rw [List.nil_append] at ha
        obtain ⟨hkey, -⟩ := List.cons.inj ha
        obtain ⟨-, rfl⟩ := Prod.mk.inj hkey
        rw [hb, List.append_nil]
        refine ⟨nonempty, fun x hx => built.mem_of_free ?_⟩
        exact split.symm.subset (List.mem_append_left _ hx)
      | cons a as => simp at ha
    · cases bs with
      | nil =>
        rw [List.nil_append] at ha
        obtain ⟨hkey, -⟩ := List.cons.inj ha
        obtain ⟨-, rfl⟩ := Prod.mk.inj hkey
        rw [List.append_nil] at hb
        rw [← hb]
        refine ⟨nonempty, fun x hx => built.mem_of_free ?_⟩
        exact split.symm.subset (List.mem_append_left _ hx)
      | cons b bs =>
        rw [List.cons_append, List.cons.injEq] at ha
        exact ih before key' group' bs (by rw [hb, ← ha.1])

/-- What holds of the leaves and passes from the children to their parent holds of all keys. -/
theorem induction (h : Builds leaves nodes free) {P : K → Prop} (hleaf : ∀ x ∈ leaves, P x)
    (hnode : ∀ key group, (key, group) ∈ nodes → (∀ x ∈ group, P x) → P key) :
    ∀ x ∈ leaves ++ keys nodes, P x := by
  induction h with
  | leaves => simpa [keys] using hleaf
  | @node nodes free rest group key built split nonempty fresh ih =>
    have hall := ih fun k g hkg => hnode k g (List.mem_append_left _ hkg)
    intro x hx
    rw [keys_append, ← List.append_assoc, List.mem_append, List.mem_singleton] at hx
    rcases hx with hx | rfl
    · exact hall x hx
    · refine hnode x group (by simp) fun y hy => hall y (built.mem_of_free ?_)
      exact split.symm.subset (List.mem_append_left _ hy)

/-- Every key is reached from a free one. -/
theorem reaches (h : Builds leaves nodes free) {x : K} (hx : x ∈ leaves ++ keys nodes) :
    ∃ r ∈ free, Relation.ReflTransGen (Child nodes) r x := by
  induction h with
  | leaves => exact ⟨x, by simpa [keys] using hx, .refl⟩
  | @node nodes free rest group key built split nonempty fresh ih =>
    rw [keys_append, ← List.append_assoc, List.mem_append, List.mem_singleton] at hx
    rcases hx with hx | rfl
    · obtain ⟨r, hr, hreach⟩ := ih hx
      have hreach : Relation.ReflTransGen (Child (nodes ++ [(key, group)])) r x :=
        hreach.lift id fun a b ⟨g, hg, hb⟩ => ⟨g, List.mem_append_left _ hg, hb⟩
      rcases List.mem_append.mp (split.subset hr) with hg | hrest
      · refine ⟨key, List.mem_cons_self .., .head ⟨group, by simp, hg⟩ hreach⟩
      · exact ⟨r, List.mem_cons_of_mem _ hrest, hreach⟩
    · exact ⟨x, List.mem_cons_self .., .refl⟩

/-- A quantity that a node takes from its children and itself is, over the free keys, the sum over
all. -/
theorem sum (h : Builds leaves nodes free) (total own : K → Nat)
    (hleaf : ∀ x ∈ leaves, total x = own x)
    (hnode : ∀ key group, (key, group) ∈ nodes → total key = (group.map total).sum + own key) :
    (free.map total).sum = ((leaves ++ keys nodes).map own).sum := by
  induction h with
  | leaves =>
    rw [keys, List.map_nil, List.append_nil]
    exact congrArg List.sum (List.map_congr_left hleaf)
  | @node nodes free rest group key built split nonempty fresh ih =>
    have hfree : (free.map total).sum = (group.map total).sum + (rest.map total).sum := by
      rw [(split.map total).sum_eq, List.map_append, List.sum_append]
    have hih := ih fun k g hkg => hnode k g (List.mem_append_left _ hkg)
    have hkey := hnode key group (by simp)
    rw [keys_append, ← List.append_assoc, List.map_append, List.sum_append, ← hih, List.map_cons,
      List.sum_cons, hkey, hfree]
    simp only [List.map_cons, List.map_nil, List.sum_cons, List.sum_nil]
    omega

end Builds

end Polymind.Forest
