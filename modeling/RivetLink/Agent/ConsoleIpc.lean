import RivetLink.Foundation.Transition

/-!
# Requests from the broker to a console worker

All clones of one `ConsoleWorkerClient` share a connection to the worker. `Ipc` is that connection
with any number of `request` calls on it. A call takes the request lock, then the writer, writes its
packet, takes the receiver of the response channel and waits for the next response. `CallPc` names
the places where a call can be suspended; at each of them its future may be dropped, by the timeout
of a capture or by the end of a viewer's download tasks. Dropping it releases the locks and leaves
on the wire what has been written.

The worker reads packets in order and answers each with one response; keyframe requests, which are
written by tasks that nobody drops, get none. A packet that was cut off runs into the next one, and
the worker gives up on what it then reads. The reader task passes responses on to the channel and
everything unasked (frames, clipboard texts, the end of a stream) elsewhere.

Packets and responses carry the number of the call they belong to. The code has no such number: it
pairs the next response with the call that waits.
-/

namespace RivetLink.Agent

open RivetLink.Foundation

/-- How much of a packet is written. -/
inductive Progress where
  | nothing
  | part
  | all
  deriving DecidableEq

/-- Where a call of `request` stands: before the request lock, before the writer, writing, before
the receiver, waiting for the response; or it is over. A result comes with the number of the call
that the worker answered. -/
inductive CallPc (β : Type) where
  | queued
  | locked
  | writing (progress : Progress)
  | written
  | receiving
  | done (answered : Nat) (response : β)
  | failed
  | dropped
  deriving DecidableEq

structure Call (ρ β : Type) where
  request : ρ
  pc : CallPc β
  deriving DecidableEq

/-- What stands on the wire to the worker. -/
inductive Segment (ρ : Type) where
  | packet (i : Nat) (request : ρ)
  | cut (i : Nat)
  | keyframe
  deriving DecidableEq

inductive WorkerState (ρ : Type) where
  | idle
  | busy (i : Nat) (request : ρ)
  | ended
  deriving DecidableEq

def WorkerState.isEnded {ρ : Type} : WorkerState ρ → Bool
  | .ended => true
  | _ => false

/-- What the worker has written: the response to call `i`, or something unasked. -/
inductive Item (β : Type) where
  | response (i : Nat) (r : β)
  | notice
  deriving DecidableEq

structure Ipc (ρ β : Type) where
  calls : List (Call ρ β)
  wire : List (Segment ρ)
  worker : WorkerState ρ
  output : List (Item β)
  readerEnded : Bool
  responses : List (Nat × β)
  deriving DecidableEq

/-- A call takes the next step of `request`, or is dropped; or one of the tasks around it moves. -/
inductive IpcAction (ρ β : Type) where
  | call (request : ρ)
  | lock (i : Nat)
  | lockWriter (i : Nat)
  | write (i : Nat) (all : Bool)
  | writeFails (i : Nat)
  | flush (i : Nat)
  | lockResponses (i : Nat)
  | receive (i : Nat)
  | drop (i : Nat)
  | keyframe
  | workerReads
  | workerAnswers (r : β)
  | workerNotice
  | workerEnds
  | readerReads
  deriving DecidableEq

variable {ρ β : Type}

namespace CallPc

def holdsRequest : CallPc β → Bool
  | .locked => true
  | .writing _ => true
  | .written => true
  | .receiving => true
  | _ => false

def holdsWriter : CallPc β → Bool
  | .writing _ => true
  | _ => false

def holdsResponses : CallPc β → Bool
  | .receiving => true
  | _ => false

/-- The whole packet is written and the response has not been received. -/
def awaiting : CallPc β → Bool
  | .writing .all => true
  | .written => true
  | .receiving => true
  | _ => false

/-- The future has not been polled to its end. -/
def active : CallPc β → Bool
  | .done _ _ => false
  | .failed => false
  | .dropped => false
  | _ => true

end CallPc

namespace Ipc

def new : Ipc ρ β := ⟨[], [], .idle, [], false, []⟩

def responseCapacity : Nat := 16

/-- Nobody holds the lock. -/
def free (s : Ipc ρ β) (holds : CallPc β → Bool) : Bool := s.calls.all fun c => !holds c.pc

def goTo (s : Ipc ρ β) (i : Nat) (c : Call ρ β) (pc : CallPc β) : Ipc ρ β :=
  { s with calls := s.calls.set i { c with pc := pc } }

/-- The call ends before its time; a part of its packet that is written stays on the wire. -/
def abandon (s : Ipc ρ β) (i : Nat) (c : Call ρ β) (pc : CallPc β) : Ipc ρ β :=
  let s' := s.goTo i c pc
  match c.pc with
  -- the bytes that are out cannot be taken back
  | .writing .part => { s' with wire := s.wire ++ [.cut i] }
  | _ => s'

def sendPacket (s : Ipc ρ β) (i : Nat) (c : Call ρ β) : Ipc ρ β :=
  { s.goTo i c (.writing .all) with wire := s.wire ++ [.packet i c.request] }

def stepCall (s : Ipc ρ β) (i : Nat) (c : Call ρ β) (a : IpcAction ρ β) : Option (Ipc ρ β) :=
  match a, c.pc with
  | .lock _, .queued => if s.free CallPc.holdsRequest then some (s.goTo i c .locked) else none
  | .lockWriter _, .locked =>
    if s.free CallPc.holdsWriter then some (s.goTo i c (.writing .nothing)) else none
  | .write _ false, .writing .nothing => some (s.goTo i c (.writing .part))
  | .write _ true, .writing .nothing => some (s.sendPacket i c)
  | .write _ true, .writing .part => some (s.sendPacket i c)
  -- a write fails only when the worker's end of the socket is closed
  | .writeFails _, .writing .nothing =>
    if s.worker.isEnded then some (s.abandon i c .failed) else none
  | .writeFails _, .writing .part =>
    if s.worker.isEnded then some (s.abandon i c .failed) else none
  | .flush _, .writing .all => some (s.goTo i c .written)
  | .lockResponses _, .written =>
    if s.free CallPc.holdsResponses then some (s.goTo i c .receiving) else none
  -- `recv` gives what the channel still holds, even after the reader task has ended
  | .receive _, .receiving =>
    match s.responses with
    | (j, r) :: rest => some { s.goTo i c (.done j r) with responses := rest }
    | [] => if s.readerEnded then some (s.goTo i c .failed) else none
  -- the locks go with the future, the request stays with the worker
  | .drop _, pc => if pc.active then some (s.abandon i c .dropped) else none
  | _, _ => none

/-- The worker reads the next packet. A cut packet takes bytes of what follows it for its own. -/
def stepWorkerReads (s : Ipc ρ β) : Option (Ipc ρ β) :=
  match s.worker, s.wire with
  | .idle, .packet i request :: rest => some { s with worker := .busy i request, wire := rest }
  | .idle, .keyframe :: rest => some { s with wire := rest }
  -- the length of the cut packet reaches into the next one
  | .idle, .cut _ :: _ :: _ => some { s with worker := .ended }
  | _, _ => none

/-- The reader task takes the next message of the worker, or notices that there are no more. -/
def stepReaderReads (s : Ipc ρ β) : Option (Ipc ρ β) :=
  if s.readerEnded then none
  else
    match s.output, s.worker with
    | .response i r :: rest, _ =>
      -- the reader task waits while the channel is full
      if s.responses.length < responseCapacity then
        some { s with output := rest, responses := s.responses ++ [(i, r)] }
      else none
    | .notice :: rest, _ => some { s with output := rest }
    -- end of file
    | [], .ended => some { s with readerEnded := true }
    | [], _ => none

def step (s : Ipc ρ β) (a : IpcAction ρ β) : Option (Ipc ρ β) :=
  match a with
  | .call request => some { s with calls := s.calls ++ [⟨request, .queued⟩] }
  | .lock i | .lockWriter i | .write i _ | .writeFails i | .flush i | .lockResponses i
  | .receive i | .drop i => s.calls[i]?.bind fun c => s.stepCall i c a
  | .keyframe =>
    if s.free CallPc.holdsWriter then some { s with wire := s.wire ++ [.keyframe] } else none
  | .workerReads => s.stepWorkerReads
  | .workerAnswers r =>
    match s.worker with
    | .busy i _ => some { s with worker := .idle, output := s.output ++ [.response i r] }
    | _ => none
  | .workerNotice =>
    match s.worker with
    | .ended => none
    | _ => some { s with output := s.output ++ [.notice] }
  -- at any time: the graphical session ends, or the worker crashes
  | .workerEnds => some { s with worker := .ended }
  | .readerReads => s.stepReaderReads

end Ipc

end RivetLink.Agent
