import Mathlib.Algebra.BigOperators.Group.List.Basic
import RivetLink.Foundation.FileTree

/-!
# The nodes below a location

`within` counts the nodes at or below a location, `below` those that are strictly below it. The
entries of a directory head disjoint parts of what is below it (`sum_within_children_le`), so a walk
that takes directories from a list and adds the directories among their entries meets each node at
most once.
-/

namespace RivetLink.Foundation

open List Option

namespace FileTree

variable {ν : Type} [DecidableEq ν] {t : FileTree ν} {loc : List ν} {name : ν} {nd : Node ν}

def within (t : FileTree ν) (loc : List ν) : Nat :=
  t.nodes.entries.countP fun e => loc.isPrefixOf e.1

def below (t : FileTree ν) (loc : List ν) : Nat :=
  t.nodes.entries.countP fun e => loc.isPrefixOf e.1 && e.1 ≠ loc

/-- A node is within its own location, but not below it. -/
theorem below_lt_within (h : t.nodes.find? loc = some nd) : t.below loc < t.within loc := by
  obtain ⟨before, after, hsplit⟩ := append_of_mem (KeyedMap.find?_eq_some.1 h)
  have hmono : ∀ es : List (List ν × Node ν),
      es.countP (fun e => loc.isPrefixOf e.1 && e.1 ≠ loc) ≤
        es.countP fun e => loc.isPrefixOf e.1 := by
    intro es
    apply countP_mono_left
    intro e _ he
    rw [Bool.and_eq_true] at he
    exact he.1
  have hself : loc.isPrefixOf loc = true := isPrefixOf_iff_prefix.2 (prefix_refl loc)
  have hbefore := hmono before
  have hafter := hmono after
  unfold below within
  rw [hsplit, countP_append, countP_append, countP_cons, countP_cons,
    if_pos hself, if_neg (by simp)]
  omega

/-! ## The entries of a directory -/

theorem mem_children : (name, nd) ∈ t.children loc ↔ t.node (loc ++ [name]) = some nd := by
  constructor
  · exact node_of_mem_children
  · intro h
    rw [node_of_ne (by simp)] at h
    refine mem_filterMap.2 ⟨(loc ++ [name], nd), KeyedMap.find?_eq_some.1 h, ?_⟩
    simp

/-- No name comes twice. -/
theorem nodup_children : ((t.children loc).map Prod.fst).Nodup := by
  have hsub : ∀ es : List (List ν × Node ν),
      ((es.filterMap fun e => e.1.getLast?.bind fun name =>
        if e.1.dropLast = loc then some (name, e.2) else none).map fun c => loc ++ [c.1]).Sublist
        (es.map Prod.fst) := by
    intro es
    induction es with
    | nil => exact .slnil
    | cons e es ih =>
      rw [filterMap_cons]
      split
      · exact ih.cons _
      · rename_i c hc
        obtain ⟨name, hlast, hname⟩ := bind_eq_some_iff.1 hc
        obtain ⟨hdrop, ⟨⟩⟩ := ite_none_right_eq_some.1 hname
        have hkey : loc ++ [name] = e.1 := by
          rw [← hdrop]
          exact dropLast_append_getLast? name hlast
        rw [map_cons, map_cons, ← hkey]
        exact ih.cons_cons _
  have hnodup := (hsub t.nodes.entries).nodup t.nodes.nodup
  refine List.Nodup.of_map (fun n => loc ++ [n]) ?_
  rw [List.map_map]
  exact hnodup

/-- A key lies under one name at most. -/
theorem sum_under_le {names : List ν} (hnodup : names.Nodup) (key : List ν) :
    (names.map fun n => if (loc ++ [n]).isPrefixOf key = true then 1 else 0).sum ≤
      if (loc.isPrefixOf key && key ≠ loc) = true then 1 else 0 := by
  induction names with
  | nil => exact Nat.zero_le _
  | cons n names ih =>
    obtain ⟨hfirst, hrest⟩ := nodup_cons.1 hnodup
    rw [map_cons, sum_cons]
    by_cases hn : (loc ++ [n]).isPrefixOf key = true
    · obtain ⟨rest, rfl⟩ := isPrefixOf_iff_prefix.1 hn
      -- no other name is the next one of the key
      have hzero : (names.map fun n' =>
          if (loc ++ [n']).isPrefixOf (loc ++ [n] ++ rest) = true then 1 else 0).sum = 0 := by
        apply sum_eq_zero
        intro x hx
        obtain ⟨n', hn', rfl⟩ := mem_map.1 hx
        rw [if_neg]
        intro hprefix
        rw [ isPrefixOf_iff_prefix, append_assoc,
          prefix_append_right_inj] at hprefix
        obtain ⟨rest', hrest'⟩ := hprefix
        cases hrest'
        exact hfirst hn'
      have hbelow : (loc.isPrefixOf (loc ++ [n] ++ rest) && loc ++ [n] ++ rest ≠ loc) = true := by
        rw [Bool.and_eq_true, isPrefixOf_iff_prefix, decide_eq_true_eq]
        refine ⟨⟨[n] ++ rest, by simp⟩, fun heq => ?_⟩
        have hlen := congrArg List.length heq
        simp only [length_append, length_singleton] at hlen
        omega
      rw [hzero, if_pos hn, if_pos hbelow]
    · rw [if_neg hn, Nat.zero_add]
      exact ih hrest

/-- The nodes within the entries of a directory are distinct nodes below it. -/
theorem sum_within_children_le (t : FileTree ν) (loc : List ν) :
    ((t.children loc).map fun e => t.within (loc ++ [e.1])).sum ≤ t.below loc := by
  have hcount : ∀ (names : List ν) (es : List (List ν × Node ν)), names.Nodup →
      (names.map fun n => es.countP fun e => (loc ++ [n]).isPrefixOf e.1).sum ≤
        es.countP fun e => loc.isPrefixOf e.1 && e.1 ≠ loc := by
    intro names es hnodup
    induction es with
    | nil => simp
    | cons e es ih =>
      simp only [countP_cons]
      rw [sum_map_add]
      exact Nat.add_le_add ih (sum_under_le hnodup e.1)
  have h := hcount ((t.children loc).map Prod.fst) t.nodes.entries nodup_children
  rw [List.map_map] at h
  exact h

end FileTree

end RivetLink.Foundation
