import RivetLink.Foundation.Broadcast
import RivetLink.Sdk.LanMessages
import RivetLink.Agent.DesktopStream

/-!
# Frames and endings of desktop streams

The frames of a stream and the report of its end carry no mark of the stream. They are written to
the same socket as the responses; the reader task of the connection takes what it finds there in
order, and passes frames and endings on to two broadcast channels of the connection, to which a
viewer subscribes before it sends its start. This module adds these data to the pool of
`DesktopStream`: what is on the socket, the two channels, and for each viewer the handle from which
it takes frames with `next`.

Streams of a worker are numbered by the order in which it accepted them. The numbers are not part of
the code. They stand with each frame and each ending, with the handle of a viewer, and with the
record of what `next` has returned; the code looks at none of them.

A step of the pool is a step here as well, with two refinements. A viewer has a response only when
the reader task has read it: those that are left over are the last ones on the socket. Three of the
pool's steps belong to steps with more data: the report of a task that was replaced says which one
it was, the reader takes a `DesktopStreamEnded` when it is the next on the socket, and a viewer sees
the end of its stream by `next`.
-/

namespace RivetLink.Agent

open RivetLink.Foundation RivetLink.Sdk

/-- A packet from the worker, with the stream it belongs to. -/
inductive WorkerPacket where
  | frame (n : Nat) (f : StreamFrame)
  | ended (n : Nat)
  | response
  deriving DecidableEq

def WorkerPacket.stream : WorkerPacket → Option Nat
  | .frame n _ => some n
  | .ended n => some n
  | .response => none

structure ClientChannels where
  /-- How many streams the worker has accepted; the last one has this number. -/
  started : Nat := 0
  /-- The tasks that were replaced before they reported their end. -/
  strays : List Nat := []
  /-- What is on the socket. -/
  output : List WorkerPacket := []
  /-- The end that the reader task has read and not yet told. -/
  reading : Option Nat := none
  desktopFrames : Broadcast (Nat × StreamFrame) := .channel 4
  /-- The ends that were told; the loss of the connection is told as the end of no stream. -/
  desktopEnded : Broadcast (Option Nat) := .channel 4
  deriving DecidableEq

/-- The subscriptions that `start_desktop_stream` makes, and the number of the stream once the
worker has accepted the start. -/
structure Subscription where
  worker : Nat
  frames : Receiver
  ended : Receiver
  number : Option Nat
  deriving DecidableEq

structure ConsoleDesktopStream where
  worker : Nat
  frames : Receiver
  ended : Receiver
  number : Nat
  video : Bool := false
  awaitingKeyframe : Bool := true
  keyframeRequested : Bool := false
  lagged : Bool := false
  deriving DecidableEq

/-- What `next` has returned: a frame, or the error for an end. -/
inductive Returned where
  | frame (n : Nat) (f : StreamFrame)
  | ended (n : Option Nat)
  deriving DecidableEq

def Returned.stream : Returned → Option Nat
  | .frame n _ => some n
  | .ended n => n

/-- The worker has accepted a start of the viewer. -/
def Subscription.accept (q : Subscription) (w n : Nat) : Subscription :=
  if q.worker = w then { q with number := some (q.number.getD n) } else q

structure Seat where
  subscription : Option Subscription := none
  desktop : Option ConsoleDesktopStream := none
  /-- What `next` has returned, with the number of the stream of the handle. -/
  returned : List (Nat × Returned) := []
  deriving DecidableEq

def Seat.accept (w n : Nat) (x : Seat) : Seat :=
  { x with subscription := x.subscription.map (·.accept w n) }

/-- The arm of `next` for the frame channel: the handle afterwards, and the frame that is
returned. -/
def ConsoleDesktopStream.onFrame (d : ConsoleDesktopStream) :
    Received (Nat × StreamFrame) → ConsoleDesktopStream × Option Returned
  | .empty => (d, none)
  | .lagged _ =>
    let d := { d with awaitingKeyframe := true }
    -- a worker that streams tiles is never asked for a keyframe
    if d.video then ({ d with keyframeRequested := true }, none)
    else ({ d with keyframeRequested := false, lagged := true }, none)
  | .value (n, .video video) =>
    let d := { d with video := true }
    if video.keyframe then
      ({ d with awaitingKeyframe := false, keyframeRequested := false },
        some (.frame n (.video video)))
    -- a delta is of no use before the next keyframe
    else if d.awaitingKeyframe then
      (if d.keyframeRequested then d else { d with lagged := false, keyframeRequested := true },
        none)
    else (d, some (.frame n (.video video)))
  | .value (n, .tiles delta) => (d, some (.frame n (.tiles delta)))

namespace ClientChannels

def serve (c : ClientChannels) (k : ConsoleWorker) : ClientChannels :=
  match k.wire with
  | [] => c
  | (_, .start) :: _ =>
    if k.accepts then
      { c with
        started := c.started + 1
        -- a task that has not reported its end is replaced
        strays := c.strays ++
          (k.desktopStream.filter (·.2 = .closing)).toList.map fun _ => c.started
        output := c.output ++ [.response] }
    else { c with output := c.output ++ [.response] }
  -- every frame of the stream was written before this response
  | (_, .stop) :: _ => { c with output := c.output ++ [.response] }

/-- What an event at worker `k` of the pool means for the channels. -/
def onEvent (c : ClientChannels) (k : ConsoleWorker) : WorkerEvent → Option ClientChannels
  | .serve => some (c.serve k)
  | .taskEnds => some c
  | .taskReports => some { c with output := c.output ++ [.ended c.started] }
  | .readerTells =>
    c.reading.map fun n =>
      { c with reading := none, desktopEnded := c.desktopEnded.send (some n) }
  | .readerEnds => some { c with desktopEnded := c.desktopEnded.send none }
  | .abandoned => some { c with output := c.output ++ [.response] }
  | .strayReports | .readerReads => none

end ClientChannels

inductive FrameAction where
  | pool (a : DesktopAction)
  /-- The task of the stream at worker `w` writes a frame. -/
  | produce (w : Nat) (f : StreamFrame)
  /-- The `i`-th of the replaced tasks reports its end. -/
  | strayReports (w i : Nat)
  /-- The reader task takes the next packet. -/
  | read (w : Nat)
  /-- `next` of viewer `u` looks at the frame channel. -/
  | pollFrames (u : Nat)
  /-- `next` of viewer `u` looks at the channel of endings. -/
  | pollEnded (u : Nat)
  deriving DecidableEq

structure DesktopFrames where
  pool : ConsoleWorkerPool
  channels : List ClientChannels
  seats : List Seat
  deriving DecidableEq

namespace DesktopFrames

def new : DesktopFrames := ⟨.new, [], []⟩

/-- The response that a viewer at worker `w` has taken is still on the socket. -/
def unread (s : DesktopFrames) (w : Nat) (c : ClientChannels) : Bool :=
  s.pool.workers[w]?.any fun k => k.responses.length < c.output.count .response

/-- What a move of viewer `u` means for its data. A viewer whose start was not served, but which has
a response that says so, is given the number of a later stream. -/
def onMove (s : DesktopFrames) (u : Nat) (x : Seat) : Move → Option Seat
  | .subscribe =>
    match s.pool.viewers[u]? with
    | some (.subscribing _ w) =>
      s.channels[w]?.map fun c =>
        { x with
          subscription := some ⟨w, c.desktopFrames.subscribe, c.desktopEnded.subscribe, none⟩ }
    | _ => none
  | .receive =>
    match s.pool.viewers[u]? with
    | some (.startSent _ w _ (some r)) =>
      s.channels[w]?.bind fun c =>
        if s.unread w c then none
        else if r = .started then
          x.subscription.map fun q =>
            let n := q.number.getD (c.started + 1)
            { x with
              subscription := none
              desktop := some ⟨q.worker, q.frames, q.ended, n, false, true, false, false⟩ }
        else some x
    | some (.stopSent _ w (some _)) =>
      s.channels[w]?.bind fun c => if s.unread w c then none else some x
    | _ => none
  -- only by `pollEnded`
  | .frameError => none
  | _ => some x

/-- The viewer whose start worker `k` is about to accept. -/
def startAccepted (k : ConsoleWorker) : WorkerEvent → Option Nat
  | .serve =>
    match k.wire with
    | (u, .start) :: _ => if k.accepts then some u else none
    | _ => none
  | _ => none

/-- The subscription of the viewer whose start was accepted gets the number of the stream. -/
def numbered (seats : List Seat) (w n : Nat) : Option Nat → List Seat
  | none => seats
  | some u => seats.modify u (Seat.accept w n)

def stepPool (s : DesktopFrames) (a : DesktopAction) : Option DesktopFrames :=
  (s.pool.step a).bind fun pool =>
    match a with
    | .join => some { s with pool, seats := s.seats ++ [{}] }
    | .attach _ _ _ => some { s with pool, channels := s.channels ++ [{}] }
    | .viewer u m =>
      s.seats[u]?.bind fun x => (s.onMove u x m).map fun x' =>
        { s with pool, seats := s.seats.set u x' }
    | .worker w e =>
      s.pool.workers[w]?.bind fun k => s.channels[w]?.bind fun c => (c.onEvent k e).map fun c' =>
        { pool
          channels := s.channels.set w c'
          seats := numbered s.seats w c'.started (startAccepted k e) }

/-- The reader task of worker `w` takes the next packet. -/
def read (s : DesktopFrames) (w : Nat) (k : ConsoleWorker) (c : ClientChannels) :
    Option DesktopFrames :=
  if k.readerEnded || k.telling then none
  else
    match c.output with
    | [] => none
    | .frame n f :: rest =>
      some { s with
        channels := s.channels.set w
          { c with output := rest, desktopFrames := c.desktopFrames.send (n, f) } }
    | .response :: rest =>
      some { s with channels := s.channels.set w { c with output := rest } }
    -- the flag is cleared at once, the subscribers are told later
    | .ended n :: rest =>
      (s.pool.step (.worker w .readerReads)).map fun pool =>
        { s with
          pool
          channels := s.channels.set w { c with output := rest, reading := some n } }

/-- `next` is called by a viewer that has a stream. -/
def polls (s : DesktopFrames) (u : Nat) : Option (Seat × ConsoleDesktopStream × ClientChannels) :=
  match s.pool.viewers[u]? with
  | some (.streaming _ _ _) =>
    s.seats[u]?.bind fun x => x.desktop.bind fun d => s.channels[d.worker]?.map fun c => (x, d, c)
  | _ => none

def step (s : DesktopFrames) : FrameAction → Option DesktopFrames
  | .pool a => s.stepPool a
  | .produce w f =>
    s.pool.workers[w]?.bind fun k => s.channels[w]?.bind fun c =>
      match k.desktopStream with
      | some (_, .running) =>
        some { s with
          channels := s.channels.set w { c with output := c.output ++ [.frame c.started f] } }
      | _ => none
  | .strayReports w i =>
    (s.pool.step (.worker w .strayReports)).bind fun pool => s.channels[w]?.bind fun c =>
      c.strays[i]?.map fun n =>
        { s with
          pool
          channels := s.channels.set w
            { c with strays := c.strays.eraseIdx i, output := c.output ++ [.ended n] } }
  | .read w =>
    s.pool.workers[w]?.bind fun k => s.channels[w]?.bind fun c => s.read w k c
  | .pollFrames u =>
    (s.polls u).bind fun (x, d, c) =>
      let (got, r) := c.desktopFrames.recv d.frames
      if got = .empty then none
      else
        let (d', item) := { d with frames := r }.onFrame got
        some { s with
          seats := s.seats.set u
            { x with
              desktop := some d'
              returned := x.returned ++ item.toList.map (d.number, ·) } }
  | .pollEnded u =>
    (s.polls u).bind fun (x, d, c) =>
      let (got, r) := c.desktopEnded.recv d.ended
      match got with
      | .empty => none
      | .lagged _ =>
        some { s with seats := s.seats.set u { x with desktop := some { d with ended := r } } }
      | .value n =>
        (s.pool.step (.viewer u .frameError)).map fun pool =>
          { s with
            pool
            seats := s.seats.set u
              { x with
                desktop := some { d with ended := r }
                returned := x.returned ++ [(d.number, .ended n)] } }

end DesktopFrames

def sampleVideo (keyframe : Bool) : StreamFrame := .video ⟨1, 1, keyframe, .empty⟩

end RivetLink.Agent
