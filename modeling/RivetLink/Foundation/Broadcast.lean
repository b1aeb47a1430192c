import Mathlib.Order.Basic

/-!
# Broadcast channels

A broadcast channel keeps the last `capacity` messages, and every receiver has its own place in the
sequence of all messages. `log` is that sequence; what has fallen out of the buffer can no longer be
received. A receiver whose next message has fallen out learns how many it missed and goes on at the
oldest message that is kept. A new receiver starts behind the last message.

`Sees` says of a receiver that every message it may still receive has a property; it holds of a new
receiver, and sending and receiving keep it.
-/

namespace RivetLink.Foundation

universe u

/-- A channel with everything that was ever sent on it. -/
structure Broadcast (α : Type u) where
  capacity : Nat
  log : List α
  deriving DecidableEq

/-- The place of a receiver: how many messages were sent before the next one it receives. -/
structure Receiver where
  next : Nat
  deriving DecidableEq

inductive Received (α : Type u) where
  | empty
  | lagged (missed : Nat)
  | value (a : α)
  deriving DecidableEq

namespace Broadcast

variable {α : Type u}

def channel (capacity : Nat) : Broadcast α := ⟨capacity, []⟩

def send (b : Broadcast α) (a : α) : Broadcast α := { b with log := b.log ++ [a] }

def subscribe (b : Broadcast α) : Receiver := ⟨b.log.length⟩

def recv (b : Broadcast α) (r : Receiver) : Received α × Receiver :=
  let oldest := b.log.length - b.capacity
  if r.next < oldest then (.lagged (oldest - r.next), ⟨oldest⟩)
  else
    match b.log[r.next]? with
    | none => (.empty, r)
    | some a => (.value a, ⟨r.next + 1⟩)

/-- Every message that the receiver may still receive satisfies `P`. -/
def Sees (b : Broadcast α) (r : Receiver) (P : α → Prop) : Prop :=
  ∀ i a, r.next ≤ i → b.log[i]? = some a → P a

variable {b : Broadcast α} {r : Receiver} {P Q : α → Prop} {a : α}

theorem Sees.subscribe : b.Sees b.subscribe P := by
  intro i a hi ha
  have hlt := (List.getElem?_eq_some_iff.1 ha).1
  exact absurd hlt (Nat.not_lt.2 hi)

theorem Sees.send (h : b.Sees r P) (ha : P a) : (b.send a).Sees r P := by
  intro i x hi hx
  rw [Broadcast.send, List.getElem?_append] at hx
  split at hx
  · exact h i x hi hx
  · rw [List.mem_singleton.1 (List.mem_of_getElem? hx)]
    exact ha

/-- A receiver has lagged behind, has nothing to receive, or gets the message at its place. -/
theorem recv_cases (b : Broadcast α) (r : Receiver) :
    (∃ missed oldest, r.next ≤ oldest ∧ b.recv r = (.lagged missed, ⟨oldest⟩)) ∨
      b.recv r = (.empty, r) ∨
      ∃ a, b.log[r.next]? = some a ∧ b.recv r = (.value a, ⟨r.next + 1⟩) := by
  unfold recv
  dsimp only
  split
  · rename_i hlag
    exact .inl ⟨_, _, Nat.le_of_lt hlag, rfl⟩
  · split
    · exact .inr (.inl rfl)
    · rename_i a ha
      exact .inr (.inr ⟨a, ha, rfl⟩)

theorem next_le_recv : r.next ≤ (b.recv r).2.next := by
  obtain ⟨missed, oldest, hle, hrecv⟩ | hrecv | ⟨a, -, hrecv⟩ := b.recv_cases r
  · simpa only [hrecv] using hle
  · simp only [hrecv, Nat.le_refl]
  · simp only [hrecv, Nat.le_succ]

theorem Sees.recv (h : b.Sees r P) : b.Sees (b.recv r).2 P :=
  fun i x hi => h i x (Nat.le_trans next_le_recv hi)

/-- What is received was among the messages that could be received. -/
theorem Sees.value (h : b.Sees r P) (ha : (b.recv r).1 = .value a) : P a := by
  obtain ⟨missed, oldest, -, hrecv⟩ | hrecv | ⟨a', hlog, hrecv⟩ := b.recv_cases r
  · rw [hrecv] at ha
    cases ha
  · rw [hrecv] at ha
    cases ha
  · rw [hrecv] at ha
    cases ha
    exact h r.next a (Nat.le_refl _) hlog

end Broadcast

end RivetLink.Foundation
