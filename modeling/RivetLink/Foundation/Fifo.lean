import Mathlib.Data.List.Infix

/-!
# Queues and stages

A `Fifo` is a queue with its history: what was taken from it and what still waits in it. What was
taken is an initial part of what was put in.

A stage takes from one queue and puts into the next. `Passes input output inHand active` says that
it has put out an initial part of what it got, and, as long as it is active, all of it but what it
has in hand. Stages compose, because an initial part of an initial part is one.
-/

namespace RivetLink.Foundation

open List

universe u

variable {α : Type u}

structure Fifo (α : Type u) where
  taken : List α := []
  waiting : List α := []
  deriving DecidableEq

namespace Fifo

def put (q : Fifo α) : List α := q.taken ++ q.waiting

def push (q : Fifo α) (l : List α) : Fifo α := { q with waiting := q.waiting ++ l }

/-- Take the next `n`, or all that wait. -/
def pull (q : Fifo α) (n : Nat) : Fifo α where
  taken := q.taken ++ q.waiting.take n
  waiting := q.waiting.drop n

@[simp] theorem put_push (q : Fifo α) (l : List α) : (q.push l).put = q.put ++ l := by
  simp [put, push]

@[simp] theorem put_pull (q : Fifo α) (n : Nat) : (q.pull n).put = q.put := by
  simp [put, pull]

@[simp] theorem taken_pull (q : Fifo α) (n : Nat) :
    (q.pull n).taken = q.taken ++ q.waiting.take n := rfl

theorem taken_prefix_put (q : Fifo α) : q.taken <+: q.put := prefix_append _ _

end Fifo

/-! ## Stages -/

structure Passes (input output inHand : List α) (active : Prop) : Prop where
  initial : output <+: input
  complete : active → output ++ inHand = input

namespace Passes

variable {input output inHand l : List α} {active active' : Prop}

theorem nil (active : Prop) : Passes ([] : List α) [] [] active :=
  ⟨prefix_refl _, fun _ => rfl⟩

/-- The stage takes more. -/
theorem take (h : Passes input output inHand active) (l : List α) :
    Passes (input ++ l) output (inHand ++ l) active where
  initial := h.initial.trans (prefix_append _ _)
  complete ha := by rw [← append_assoc, h.complete ha]

/-- The stage puts out some of what it has in hand. -/
theorem give (h : Passes input output (l ++ inHand) active) (ha : active) :
    Passes input (output ++ l) inHand active where
  initial := ⟨inHand, by rw [append_assoc, h.complete ha]⟩
  complete _ := by rw [append_assoc, h.complete ha]

/-- The stage stops, and what it has in hand is lost. -/
theorem stop (h : Passes input output inHand active) (hstop : ¬ active') (inHand' : List α) :
    Passes input output inHand' active' :=
  ⟨h.initial, fun ha => absurd ha hstop⟩

/-- More comes in after the stage has stopped. -/
theorem ignore (h : Passes input output inHand active) (hstop : ¬ active') (l inHand' : List α) :
    Passes (input ++ l) output inHand' active' :=
  ⟨h.initial.trans (prefix_append _ _), fun ha => absurd ha hstop⟩

theorem mono (h : Passes input output inHand active) (hactive : active' → active) :
    Passes input output inHand active' :=
  ⟨h.initial, fun ha => h.complete (hactive ha)⟩

end Passes

end RivetLink.Foundation
