import Mathlib.Data.List.Basic

/-!
# Slots of a list

The parties of a system are kept in lists and named by their positions. These are the rules for what
a position holds when one party moves (`set`) or a new one joins at the end (`snoc`).
-/

namespace RivetLink.Foundation

open List Option

universe u v

variable {α : Type u} {β : Type v} {l : List α} {i j : Nat} {a b : α}

theorem lt_of_slot (h : l[i]? = some a) : i < l.length := (List.getElem?_eq_some_iff.1 h).1

theorem slot_set (h : l[i]? = some a) : (l.set i b)[i]? = some b :=
  getElem?_set_self (lt_of_slot h)

theorem slot_snoc (h : l[i]? = some a) : (l ++ [b])[i]? = some a :=
  (getElem?_append_left (lt_of_slot h)).trans h

/-- Only the slot that is set has changed. -/
theorem of_slot_set (h : (l.set i a)[j]? = some b) : j = i ∧ b = a ∨ j ≠ i ∧ l[j]? = some b := by
  by_cases hij : j = i
  · subst hij
    rw [getElem?_set_self'] at h
    obtain ⟨-, -, rfl⟩ := map_eq_some_iff.1 h
    exact .inl ⟨rfl, rfl⟩
  · rw [getElem?_set_ne (Ne.symm hij)] at h
    exact .inr ⟨hij, h⟩

theorem mem_set_self (h : l[i]? = some a) : b ∈ l.set i b := mem_of_getElem? (slot_set h)

/-- Only what was in the slot that is set is gone. -/
theorem mem_set_of_mem (b : α) (h : l[i]? = some a) {c : α} (hc : c ∈ l) :
    c = a ∨ c ∈ l.set i b := by
  obtain ⟨j, hj⟩ := getElem?_of_mem hc
  by_cases hij : i = j
  · subst hij
    exact .inl (some.inj (hj.symm.trans h))
  · exact .inr (mem_of_getElem? ((getElem?_set_ne hij).trans hj))

/-- Only the slot at the end is new. -/
theorem of_slot_snoc (h : (l ++ [a])[j]? = some b) : l[j]? = some b ∨ j = l.length ∧ b = a := by
  obtain hlt | rfl | hgt := Nat.lt_trichotomy j l.length
  · exact .inl ((getElem?_append_left hlt).symm.trans h)
  · exact .inr ⟨rfl, some.inj (h.symm.trans getElem?_concat_length)⟩
  · rw [getElem?_eq_none (by simpa [Nat.succ_le_iff] using hgt)] at h
    cases h

theorem set_slot (h : l[i]? = some a) : l.set i a = l := by
  obtain ⟨hlt, rfl⟩ := List.getElem?_eq_some_iff.1 h
  exact List.set_getElem_self hlt

/-- What the parties keep, the list keeps. -/
theorem map_set_slot {f : α → β} (h : l[i]? = some a) (hf : f b = f a) :
    (l.set i b).map f = l.map f := by
  rw [map_set, hf]
  exact set_slot (by rw [getElem?_map, h, map_some])

end RivetLink.Foundation
