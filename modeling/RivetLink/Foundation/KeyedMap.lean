import Mathlib.Data.List.Nodup

/-!
# Finite maps as lists of entries

A map that holds at most one value for each key, with the operations of a hash map that iterate:
`retain` keeps the entries that pass a test, `size` counts them. The order of the entries has no
meaning; everything is said through `find?`.
-/

namespace RivetLink.Foundation

open List Option

variable {κ β : Type}

structure KeyedMap (κ β : Type) where
  entries : List (κ × β)
  nodup : (entries.map Prod.fst).Nodup

namespace KeyedMap

def empty : KeyedMap κ β := ⟨[], nodup_nil⟩

def size (m : KeyedMap κ β) : Nat := m.entries.length

theorem nodup_filter (m : KeyedMap κ β) (p : κ × β → Bool) :
    ((m.entries.filter p).map Prod.fst).Nodup :=
  (filter_sublist.map Prod.fst).nodup m.nodup

/-- Keep the entries that pass a test. -/
def retain (m : KeyedMap κ β) (p : κ → β → Bool) : KeyedMap κ β :=
  ⟨m.entries.filter fun e => p e.1 e.2, m.nodup_filter _⟩

theorem size_retain_le {m : KeyedMap κ β} {p : κ → β → Bool} : (m.retain p).size ≤ m.size :=
  length_filter_le _ _

variable [DecidableEq κ]

def find? (m : KeyedMap κ β) (k : κ) : Option β := m.entries.lookup k

def contains (m : KeyedMap κ β) (k : κ) : Bool := (m.find? k).isSome

theorem nodup_put (m : KeyedMap κ β) (k : κ) (v : β) :
    (((k, v) :: m.entries.filter fun e => e.1 ≠ k).map Prod.fst).Nodup := by
  rw [map_cons, nodup_cons]
  refine ⟨?_, m.nodup_filter _⟩
  intro hmem
  obtain ⟨e, he, hk⟩ := mem_map.1 hmem
  exact of_decide_eq_true (mem_filter.1 he).2 hk

def put (m : KeyedMap κ β) (k : κ) (v : β) : KeyedMap κ β :=
  ⟨(k, v) :: m.entries.filter fun e => e.1 ≠ k, m.nodup_put k v⟩

def erase (m : KeyedMap κ β) (k : κ) : KeyedMap κ β := m.retain fun k' _ => k' ≠ k

/-! ## Looking up -/

variable {m : KeyedMap κ β} {k k' : κ} {v : β} {p : κ → β → Bool}

theorem lookup_eq_some {l : List (κ × β)} (h : (l.map Prod.fst).Nodup) :
    l.lookup k = some v ↔ (k, v) ∈ l := by
  induction l with
  | nil => simp
  | cons e l ih =>
    rw [map_cons, nodup_cons] at h
    rw [lookup_cons, mem_cons]
    by_cases hk : k = e.1
    · subst hk
      have hnot : (e.1, v) ∉ l := fun hmem => h.1 (mem_map.2 ⟨_, hmem, rfl⟩)
      simp only [beq_self_eq_true, some.injEq, Prod.ext_iff, true_and, hnot, or_false]
      exact eq_comm
    · have hne : (k, v) ≠ e := fun heq => hk (congrArg Prod.fst heq)
      rw [beq_eq_false_iff_ne.2 hk]
      simp only [hne, false_or]
      exact ih h.2

theorem find?_eq_some : m.find? k = some v ↔ (k, v) ∈ m.entries := lookup_eq_some m.nodup

theorem find?_retain : (m.retain p).find? k = (m.find? k).filter (p k) := by
  refine Option.ext fun v => ?_
  rw [find?_eq_some, filter_eq_some_iff, find?_eq_some]
  exact mem_filter

theorem find?_put_self : (m.put k v).find? k = some v :=
  find?_eq_some.2 mem_cons_self

theorem find?_put_of_ne (h : k' ≠ k) : (m.put k v).find? k' = m.find? k' := by
  refine Option.ext fun w => ?_
  rw [find?_eq_some, find?_eq_some]
  change (k', w) ∈ (k, v) :: _ ↔ _
  simp [h]

theorem find?_put_cases {v' : β} (h : (m.put k v).find? k' = some v') :
    k' = k ∧ v' = v ∨ k' ≠ k ∧ m.find? k' = some v' := by
  by_cases heq : k' = k
  · rw [heq, find?_put_self] at h
    exact .inl ⟨heq, (some.inj h).symm⟩
  · rw [find?_put_of_ne heq] at h
    exact .inr ⟨heq, h⟩

theorem put_put (w : β) : (m.put k v).put k w = m.put k w := by
  have hentries : ((k, v) :: m.entries.filter fun e => e.1 ≠ k).filter (fun e => e.1 ≠ k) =
      m.entries.filter fun e => e.1 ≠ k := by
    simp [List.filter_filter]
  unfold put
  congr 1
  exact congrArg ((k, w) :: ·) hentries

theorem find?_erase_self : (m.erase k).find? k = none := by
  rw [erase, find?_retain]
  cases m.find? k <;> simp

theorem find?_erase_of_ne (h : k' ≠ k) : (m.erase k).find? k' = m.find? k' := by
  rw [erase, find?_retain]
  cases m.find? k' <;> simp [h]

theorem find?_erase_cases (h : (m.erase k).find? k' = some v) : k' ≠ k ∧ m.find? k' = some v := by
  by_cases heq : k' = k
  · rw [heq, find?_erase_self] at h
    cases h
  · rw [find?_erase_of_ne heq] at h
    exact ⟨heq, h⟩

/-! ## Counting -/

/-- If no entry is dropped, all of them pass the test. -/
theorem pass_of_size_retain (h : m.size ≤ (m.retain p).size) (hv : m.find? k = some v) :
    p k v = true := by
  have hall := length_filter_eq_length_iff.1 (Nat.le_antisymm (length_filter_le _ _) h)
  exact hall (k, v) (find?_eq_some.1 hv)

/-- A new key adds one to the size. -/
theorem size_put_le_succ : (m.put k v).size ≤ m.size + 1 :=
  Nat.succ_le_succ (length_filter_le _ _)

/-- A key that is there keeps the size. -/
theorem size_put_of_contains (h : m.contains k = true) : (m.put k v).size ≤ m.size := by
  obtain ⟨w, hw⟩ := isSome_iff_exists.1 h
  have hlt : (m.entries.filter fun e => e.1 ≠ k).length < m.entries.length := by
    refine length_filter_lt_length_iff_exists.2 ⟨(k, w), find?_eq_some.1 hw, ?_⟩
    simp
  exact hlt

end KeyedMap

end RivetLink.Foundation
