import Mathlib.Data.List.Sort

/-!
# Ordered sets

A set whose elements are kept in increasing order, so that two sets with the same elements are equal
(`SortedSet.ext`). The order in which a set is built does not matter; what counts is membership
(`mem_insert`, `mem_erase`, `mem_extend`, `mem_ofList`).
-/

namespace RivetLink.Foundation

open List

/-- A set of elements of a linear order, in increasing order. -/
structure SortedSet (α : Type) [LinearOrder α] where
  elems : List α
  sorted : elems.Pairwise (· < ·)
  deriving DecidableEq

namespace SortedSet

variable {α : Type} [LinearOrder α] {a b : α} {s t : SortedSet α} {l : List α}

instance : Membership α (SortedSet α) := ⟨fun s a => a ∈ s.elems⟩

instance (a : α) (s : SortedSet α) : Decidable (a ∈ s) :=
  inferInstanceAs (Decidable (a ∈ s.elems))

instance : HasSubset (SortedSet α) := ⟨fun s t => ∀ a, a ∈ s → a ∈ t⟩

theorem mem_elems : a ∈ s.elems ↔ a ∈ s := Iff.rfl

@[ext] theorem ext (h : ∀ a, a ∈ s ↔ a ∈ t) : s = t := by
  have helems : s.elems = t.elems := s.sorted.eq_of_mem_iff t.sorted h
  cases s
  cases t
  cases helems
  rfl

theorem subset_refl (s : SortedSet α) : s ⊆ s := fun _ h => h

theorem subset_trans {u : SortedSet α} (h : s ⊆ t) (h' : t ⊆ u) : s ⊆ u :=
  fun a ha => h' a (h a ha)

def empty : SortedSet α := ⟨[], .nil⟩

theorem not_mem_empty : a ∉ (empty : SortedSet α) := not_mem_nil

def place (a : α) : List α → List α
  | [] => [a]
  | b :: l => if a < b then a :: b :: l else if a = b then b :: l else b :: place a l

theorem mem_place : b ∈ place a l ↔ b = a ∨ b ∈ l := by
  induction l with
  | nil => exact mem_cons
  | cons c l ih =>
    unfold place
    split
    · exact mem_cons
    · split
      · rename_i heq
        subst heq
        simp
      · rw [mem_cons, ih, mem_cons]
        exact or_left_comm

theorem sorted_place (h : l.Pairwise (· < ·)) : (place a l).Pairwise (· < ·) := by
  induction l with
  | nil => exact pairwise_singleton _ _
  | cons c l ih =>
    unfold place
    obtain ⟨hhead, htail⟩ := pairwise_cons.1 h
    split
    · rename_i hlt
      refine pairwise_cons.2 ⟨fun d hd => ?_, h⟩
      obtain rfl | hd := mem_cons.1 hd
      · exact hlt
      · exact hlt.trans (hhead d hd)
    · split
      · exact h
      · rename_i hnot hne
        refine pairwise_cons.2 ⟨fun d hd => ?_, ih htail⟩
        obtain rfl | hd := mem_place.1 hd
        · exact lt_of_le_of_ne (not_lt.1 hnot) (Ne.symm hne)
        · exact hhead d hd

def insert (s : SortedSet α) (a : α) : SortedSet α := ⟨place a s.elems, sorted_place s.sorted⟩

theorem mem_insert : b ∈ s.insert a ↔ b = a ∨ b ∈ s := mem_place

def erase (s : SortedSet α) (a : α) : SortedSet α :=
  ⟨s.elems.filter (· ≠ a), s.sorted.filter _⟩

theorem mem_erase : b ∈ s.erase a ↔ b ∈ s ∧ b ≠ a := by
  rw [← mem_elems, ← mem_elems, erase, mem_filter, decide_eq_true_iff]

def extend (s : SortedSet α) (l : List α) : SortedSet α := l.foldl insert s

theorem mem_extend : b ∈ s.extend l ↔ b ∈ s ∨ b ∈ l := by
  induction l generalizing s with
  | nil => simp [extend]
  | cons a l ih =>
    rw [extend, foldl_cons, ← extend, ih, mem_insert, mem_cons,
      or_comm (a := b = a), or_assoc]

def ofList (l : List α) : SortedSet α := empty.extend l

theorem mem_ofList : b ∈ ofList l ↔ b ∈ l := by
  rw [ofList, mem_extend]
  exact or_iff_right not_mem_empty

end SortedSet

end RivetLink.Foundation
