import RivetLink.Foundation.Fifo
import RivetLink.Protocol.TunnelFrames

/-!
# One end of a tunnel stream

Both ends of a relay tunnel move bytes between a local stream and frames in the same way. The
upstream half reads a chunk of at most `maxTunnelPayload` bytes and sends it as one frame; the
downstream half writes the payload of each frame to the local stream. Either half may end at any
moment, and then the other is cancelled, also in the middle of a frame. Frames wait in a bounded
queue for the task that writes to the WebSocket (`Outbox`).

`built`, `got` and `queued` are records of the model: the payloads that the upstream half has read,
those that the downstream half was given, and all messages that were ever queued.
-/

namespace RivetLink.Sdk

open List Option RivetLink.Foundation RivetLink.Protocol

variable {τ : Type}

/-- Bytes buffered between the local side and the pump in each direction. -/
def tunnelBuffer : Nat := 256 * 1024

/-! ## The queue to the WebSocket -/

structure Outbox (τ : Type) where
  queued : List (WsMessage τ) := []
  waiting : List (WsMessage τ) := []
  sent : List (WsMessage τ) := []
  closed : Bool := false

namespace Outbox

def hasRoom (box : Outbox τ) (capacity : Nat) : Bool :=
  !box.closed && box.waiting.length < capacity

def push (box : Outbox τ) (m : WsMessage τ) : Outbox τ :=
  { box with queued := box.queued ++ [m], waiting := box.waiting ++ [m] }

/-- The writing task sends the next message. -/
def flush (box : Outbox τ) : Option (Outbox τ) :=
  match box.closed, box.waiting with
  | false, m :: rest => some { box with waiting := rest, sent := box.sent ++ [m] }
  | _, _ => none

/-- The writing task ends. -/
def close (box : Outbox τ) : Outbox τ := { box with waiting := [], closed := true }

/-- What is sent is an initial part of what was queued. -/
def Ok (box : Outbox τ) : Prop := Passes box.queued box.sent box.waiting (box.closed = false)

variable {box box' : Outbox τ}

theorem Ok.push (h : box.Ok) (m : WsMessage τ) : (box.push m).Ok := h.take [m]

theorem flush_eq_some (hflush : box.flush = some box') :
    ∃ m rest, box.closed = false ∧ box.waiting = m :: rest ∧
      box' = { box with waiting := rest, sent := box.sent ++ [m] } := by
  unfold flush at hflush
  split at hflush <;> cases hflush
  rename_i m rest hclosed hwaiting
  exact ⟨m, rest, hclosed, hwaiting, rfl⟩

theorem Ok.flush (h : box.Ok) (hflush : box.flush = some box') : box'.Ok := by
  obtain ⟨m, rest, hclosed, hwaiting, rfl⟩ := flush_eq_some hflush
  have h' : Passes box.queued box.sent ([m] ++ rest) (box.closed = false) := by
    rw [singleton_append, ← hwaiting]
    exact h
  exact h'.give hclosed

theorem Ok.close (h : box.Ok) : box.close.Ok := Passes.stop h Bool.noConfusion []

end Outbox

/-! ## The pump -/

structure Pump where
  /-- From the local side to the upstream half. -/
  up : Fifo UInt8 := {}
  /-- The chunk that was read and is not queued yet. -/
  hand : Option Bytes := none
  built : List Bytes := []
  got : List Bytes := []
  /-- What is still to be written of a payload. -/
  rest : Bytes := []
  /-- From the downstream half to the local side. -/
  down : Fifo UInt8 := {}
  /-- The two halves run. -/
  running : Bool := true
  /-- The local side holds its end of the stream. -/
  attached : Bool := true

inductive PumpAction where
  -- the local side
  | write (b : Bytes)
  | read (n : Nat)
  | detach
  -- the halves
  | take (n : Nat)
  | put (n : Nat)
  | stop
  deriving DecidableEq

namespace Pump

/-- The upstream half reads the next `n` bytes. -/
def take (p : Pump) (n : Nat) : Pump :=
  { p with
    up := p.up.pull n
    hand := some (p.up.waiting.take n)
    built := p.built ++ [p.up.waiting.take n] }

/-- The downstream half writes `n` more bytes of the payload. -/
def put (p : Pump) (n : Nat) : Pump :=
  { p with rest := p.rest.drop n, down := p.down.push (p.rest.take n) }

def stop (p : Pump) : Pump := { p with running := false, hand := none, rest := [] }

def step (p : Pump) : PumpAction → Option Pump
  | .write b =>
    if p.attached ∧ p.up.waiting.length + b.length ≤ tunnelBuffer then
      some { p with up := p.up.push b }
    else none
  | .read n => if p.attached then some { p with down := p.down.pull n } else none
  | .detach => some { p with attached := false }
  | .take n =>
    if p.running ∧ p.hand = none ∧ 0 < n ∧ n ≤ maxTunnelPayload ∧ n ≤ p.up.waiting.length then
      some (p.take n)
    else none
  | .put n =>
    if p.running ∧ n ≤ p.rest.length ∧ p.down.waiting.length + n ≤ tunnelBuffer then
      some (p.put n)
    else none
  | .stop => some p.stop

def release (p : Pump) : Pump := { p with hand := none }

/-- The upstream half has come to the end of the local stream. -/
def atEnd (p : Pump) : Bool :=
  p.running && p.hand.isNone && !p.attached && p.up.waiting.isEmpty

/-- The downstream half is ready for a payload. -/
def ready (p : Pump) : Bool := p.running && p.rest.isEmpty

def accept (p : Pump) (payload : Bytes) : Pump :=
  { p with got := p.got ++ [payload], rest := payload }

/-- The bytes of the local streams and the payloads belong together. -/
structure Ok (p : Pump) : Prop where
  taken : p.built.flatten = p.up.taken
  sized : ∀ b ∈ p.built, b ≠ [] ∧ b.length ≤ maxTunnelPayload
  hand : ∀ b, p.hand = some b → p.running = true ∧ b ∈ p.built
  down : Passes p.got.flatten p.down.put p.rest (p.running = true)

/-- The payloads `out` have been queued. -/
def Feeds (p : Pump) (out : List Bytes) : Prop :=
  Passes p.built out p.hand.toList (p.running = true)

/-- The payloads `given` were there for the downstream half, and `inHand` are still to come. -/
def Drains (p : Pump) (given inHand : List Bytes) : Prop :=
  Passes given p.got inHand (p.running = true)

variable {p p' : Pump} {out given inHand : List Bytes} {payload : Bytes} {a : PumpAction} {n : Nat}

theorem Ok.new : Ok {} where
  taken := rfl
  sized _ hb := by cases hb
  hand _ hb := by cases hb
  down := .nil _

theorem Ok.take (h : p.Ok) (hrunning : p.running = true) (hpos : 0 < n)
    (hmax : n ≤ maxTunnelPayload) (hn : n ≤ p.up.waiting.length) : (p.take n).Ok where
  taken := by
    rw [Pump.take, flatten_append, h.taken]
    simp
  sized b hb := by
    obtain hb | hb := mem_append.1 hb
    · exact h.sized b hb
    · rw [mem_singleton.1 hb]
      have hlen : (p.up.waiting.take n).length = n := length_take_of_le hn
      exact ⟨length_pos_iff.1 (by omega), by omega⟩
  hand b hb := by
    cases hb
    exact ⟨hrunning, mem_append_right _ mem_cons_self⟩
  down := h.down

theorem Ok.put (h : p.Ok) (hrunning : p.running = true) : (p.put n).Ok where
  taken := h.taken
  sized := h.sized
  hand := h.hand
  down := by
    have hdown := h.down
    rw [← take_append_drop n p.rest] at hdown
    rw [Pump.put, Fifo.put_push]
    exact hdown.give hrunning

theorem Ok.stop (h : p.Ok) : p.stop.Ok where
  taken := h.taken
  sized := h.sized
  hand _ hb := by cases hb
  down := h.down.stop Bool.noConfusion []

theorem Ok.step (h : p.Ok) (hstep : p.step a = some p') : p'.Ok := by
  cases a with
  | write b =>
    obtain ⟨-, ⟨⟩⟩ := ite_none_right_eq_some.1 hstep
    exact { h with }
  | read n =>
    obtain ⟨-, ⟨⟩⟩ := ite_none_right_eq_some.1 hstep
    exact { h with down := by rw [Fifo.put_pull]; exact h.down }
  | detach =>
    cases hstep
    exact { h with }
  | take n =>
    obtain ⟨hcond, ⟨⟩⟩ := ite_none_right_eq_some.1 hstep
    exact h.take hcond.1 hcond.2.2.1 hcond.2.2.2.1 hcond.2.2.2.2
  | put n =>
    obtain ⟨hcond, ⟨⟩⟩ := ite_none_right_eq_some.1 hstep
    exact h.put hcond.1
  | stop =>
    cases hstep
    exact h.stop

/-- What the pump and its local side do by themselves queues nothing and takes no payload. -/
theorem Feeds.step (h : p.Feeds out) (hstep : p.step a = some p') : p'.Feeds out := by
  cases a with
  | write b | read n | put n =>
    obtain ⟨-, ⟨⟩⟩ := ite_none_right_eq_some.1 hstep
    exact h
  | detach =>
    cases hstep
    exact h
  | take n =>
    obtain ⟨hcond, ⟨⟩⟩ := ite_none_right_eq_some.1 hstep
    have htake : Passes (p.built ++ [p.up.waiting.take n]) out
        (p.hand.toList ++ [p.up.waiting.take n]) (p.running = true) := Passes.take h _
    rw [hcond.2.1] at htake
    exact htake
  | stop =>
    cases hstep
    exact Passes.stop h Bool.noConfusion []

/-- What the pump and its local side do by themselves takes no payload and starts nothing. -/
structure Frame (p p' : Pump) : Prop where
  got : p'.got = p.got
  running : p'.running = true → p.running = true
  built : ∀ b ∈ p.built, b ∈ p'.built

theorem frame_step (hstep : p.step a = some p') : Frame p p' := by
  cases a with
  | write b | read n | put n =>
    obtain ⟨-, ⟨⟩⟩ := ite_none_right_eq_some.1 hstep
    exact ⟨rfl, id, fun _ => id⟩
  | take n =>
    obtain ⟨-, ⟨⟩⟩ := ite_none_right_eq_some.1 hstep
    exact ⟨rfl, id, fun _ => mem_append_left _⟩
  | detach =>
    cases hstep
    exact ⟨rfl, id, fun _ => id⟩
  | stop =>
    cases hstep
    exact ⟨rfl, nofun, fun _ => id⟩

theorem Drains.step (h : p.Drains given inHand) (hstep : p.step a = some p') :
    p'.Drains given inHand := by
  unfold Drains
  rw [(frame_step hstep).got]
  exact h.mono (frame_step hstep).running

theorem Ok.release (h : p.Ok) : p.release.Ok := { h with hand := nofun }

theorem Feeds.release (h : p.Feeds out) (hok : p.Ok) (hhand : p.hand = some payload) :
    p.release.Feeds (out ++ [payload]) := by
  have h' : Passes p.built out ([payload] ++ []) (p.running = true) := by
    have hfeeds : Passes p.built out p.hand.toList (p.running = true) := h
    rw [hhand] at hfeeds
    exact hfeeds
  exact h'.give (hok.hand payload hhand).1

theorem Ok.accept (h : p.Ok) (hready : p.ready = true) : (p.accept payload).Ok where
  taken := h.taken
  sized := h.sized
  hand := h.hand
  down := by
    have hdown := h.down
    simp only [Pump.ready, Bool.and_eq_true, List.isEmpty_iff] at hready
    rw [hready.2] at hdown
    have htake := hdown.take payload
    rw [Pump.accept, flatten_append]
    simpa using htake

theorem Drains.accept (h : p.Drains given (payload :: inHand)) (hready : p.ready = true) :
    (p.accept payload).Drains given inHand := by
  have h' : Passes given p.got ([payload] ++ inHand) (p.running = true) := h
  exact h'.give (Bool.and_eq_true_iff.1 hready).1

theorem Drains.stop (h : p.Drains given inHand) (inHand' : List Bytes) :
    p.stop.Drains given inHand' :=
  Passes.stop h Bool.noConfusion inHand'

/-- The local side reads an initial part of what came in payloads. -/
theorem Ok.read_prefix (h : p.Ok) : p.down.taken <+: p.got.flatten :=
  p.down.taken_prefix_put.trans h.down.initial

/-- The payloads are an initial part of what the local side wrote. -/
theorem Ok.built_prefix (h : p.Ok) : p.built.flatten <+: p.up.put :=
  h.taken ▸ p.up.taken_prefix_put

end Pump

end RivetLink.Sdk
