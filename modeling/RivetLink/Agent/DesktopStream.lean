import RivetLink.Foundation.Transition

/-!
# Viewers of the desktop stream

A console worker runs at most one desktop stream, and any number of viewers want it. Each viewer is
a run of `stream_authenticated_desktop`: it claims the stream, which may mean to take it over from
the viewer that has it, forwards frames, may switch the display, and ends by stopping the stream.
`ViewerPhase` names the places between two accesses of a viewer to something shared: the claim lock
and the owner counter of the pool, the flag `desktop_stream_active` of a connection, its request
lock, and the worker itself. A lock that is given up is given up together with the last access
before.

`ConsoleWorker` is one connection with its two ends. Of the requests on it, the two about the stream
are modelled. A response says nothing of its request: the next one in the channel goes to whoever
waits under the request lock. A request of another kind matters only if it is dropped after it was
written (`abandoned`): its response stays in the channel, and from then on each request gets the
response to an earlier one, which `ResponseMatching` shows of the connection alone. A request fails
if it cannot be written, or if the reader task has ended; in the second case the worker may
still serve it. The worker serves requests one by one and keeps the forwarder task of the stream. A
task that ends on its own clears the worker's flag and then reports the end; the reader task clears
the broker's flag when it reads the report, and then tells the subscribers. Which worker is the
current one is up to the supervisor of the workers, so `current` may return any.

The record `stopped` of a worker is not part of the code: it lists for whom a running stream was
stopped, and for whom it had been started.
-/

namespace RivetLink.Agent

open Option RivetLink.Foundation

inductive StreamRequest where
  | start
  | stop
  deriving DecidableEq

inductive StreamResponse where
  | started
  | stopped
  /-- An error, or the response to a request of another kind. -/
  | error
  deriving DecidableEq

/-- The forwarder task of a stream: it forwards frames, has cleared the worker's flag, has reported
its end. -/
inductive ForwarderTask where
  | running
  | closing
  | ended
  deriving DecidableEq

structure ConsoleWorker where
  /-- The worker reported `DesktopReady`. -/
  desktopReady : Bool
  displaySwitch : Bool
  /-- What `supports_normal_desktop_stream` says of the worker's session. -/
  supported : Bool
  desktopStreamActive : Bool := false
  requestLock : Option Nat := none
  readerEnded : Bool := false
  /-- How many messages were sent to the subscribers of `desktop_ended`. -/
  endings : Nat := 0
  /-- Requests that are written, with the viewer that wrote them. -/
  wire : List (Nat × StreamRequest) := []
  /-- The responses that nobody has taken. -/
  responses : List StreamResponse := []
  /-- How many `DesktopStreamEnded` the reader task has not read. -/
  notices : Nat := 0
  /-- The reader task has read a `DesktopStreamEnded` and not yet told the subscribers. -/
  telling : Bool := false
  /-- The worker's own `desktop_stream_active`. -/
  workerActive : Bool := false
  /-- The task of the last stream, with the viewer for whom it was started. -/
  desktopStream : Option (Nat × ForwarderTask) := none
  /-- How many tasks have been replaced before they reported their end. -/
  strays : Nat := 0
  stopped : List (Nat × Nat) := []
  deriving DecidableEq

/-- What a stream is started for: a new claim, or a display switch of the viewer with this claim,
whose stream so far had seen that many endings. -/
inductive Purpose where
  | claim (id : Nat)
  | switch (id seen : Nat)
  deriving DecidableEq

/-- What a stream is stopped for: the end of the viewer, or a display switch. -/
inductive Cause where
  | finish
  | switch (id seen : Nat)
  deriving DecidableEq

/-- Where a viewer stands. A stream that is held is given by its claim, its worker and the endings
that its subscription does not show. -/
inductive ViewerPhase where
  -- `stream_authenticated_desktop` up to the claim
  | arriving
  -- `claim_desktop_stream`
  | claiming (takeOver : Bool)
  | checking
  | probing (w : Nat)
  | bumping
  | waiting (id : Nat)
  | testing (id w : Nat)
  | sleeping (id : Nat)
  -- `start_desktop_stream`
  | swapping (p : Purpose) (w : Nat)
  | subscribing (p : Purpose) (w : Nat)
  | startQueued (p : Purpose) (w seen : Nat)
  | startSent (p : Purpose) (w seen : Nat) (reply : Option StreamResponse)
  | clearing (p : Purpose) (w : Nat)
  -- the loop of `stream_authenticated_desktop`
  | streaming (id w seen : Nat)
  | waitingLogin (w : Nat)
  | judging (id w seen : Nat)
  -- `switch_desktop_display`
  | checkingOwner (id w seen : Nat)
  -- `stop_desktop_stream`
  | storing (c : Cause) (w : Nat)
  | stopQueued (c : Cause) (w : Nat)
  | stopSent (c : Cause) (w : Nat) (reply : Option StreamResponse)
  | finished
  deriving DecidableEq

/-- What a viewer does next. -/
inductive Move where
  | approach (takeOver : Bool)
  | refuse
  | lock
  | current (w : Option Nat)
  | load
  | bump
  | retry
  | expire
  | swap
  | subscribe
  | write (ok : Bool)
  | receive
  | fail
  | clear
  | takenOver
  | leave
  | frameError
  | loginScreen
  | switchDisplay
  | checkOwner
  | store
  deriving DecidableEq

/-- What happens at a worker or in the reader task of its connection. -/
inductive WorkerEvent where
  | serve
  | taskEnds
  | taskReports
  | strayReports
  | readerReads
  | readerTells
  | readerEnds
  /-- A request of another kind was dropped while its response was on the way. -/
  | abandoned
  deriving DecidableEq

inductive DesktopAction where
  | join
  | attach (desktopReady displaySwitch supported : Bool)
  | viewer (u : Nat) (m : Move)
  | worker (w : Nat) (e : WorkerEvent)
  deriving DecidableEq

structure ConsoleWorkerPool where
  viewers : List ViewerPhase
  workers : List ConsoleWorker
  desktopOwner : Nat
  /-- Who holds the claim lock. -/
  desktopClaim : Option Nat
  deriving DecidableEq

def Purpose.id : Purpose → Nat
  | .claim id => id
  | .switch id _ => id

/-- Where a viewer goes on when its start has failed. -/
def Purpose.failed (w : Nat) : Purpose → ViewerPhase
  | .claim _ => .finished
  | .switch id seen => .judging id w seen

/-- Where a viewer goes on when its stop has succeeded. -/
def Cause.done (w : Nat) : Cause → ViewerPhase
  | .finish => .finished
  | .switch id seen => .swapping (.switch id seen) w

/-- Where a viewer goes on when its stop has failed. -/
def Cause.failed (w : Nat) : Cause → ViewerPhase
  | .finish => .finished
  | .switch id seen => .judging id w seen

/-- The request to which the viewer has no response. -/
def ViewerPhase.awaits : ViewerPhase → Option (Nat × StreamRequest)
  | .startSent _ w _ none => some (w, .start)
  | .stopSent _ w none => some (w, .stop)
  | _ => none

/-- A response from worker `w` arrives. -/
def ViewerPhase.answered (w : Nat) (r : StreamResponse) : ViewerPhase → ViewerPhase
  | .startSent p w' seen none => .startSent p w' seen (if w' = w then some r else none)
  | .stopSent c w' none => .stopSent c w' (if w' = w then some r else none)
  | p => p

namespace ConsoleWorker

/-- A request of viewer `u` is written, under the request lock, and the viewer takes the response
that is in the channel, if any. -/
def send (k : ConsoleWorker) (u : Nat) (r : StreamRequest) : Option ConsoleWorker :=
  if k.requestLock.isNone then
    some { k with
      requestLock := some u, wire := k.wire ++ [(u, r)], responses := k.responses.tail }
  else none

/-- The worker would start a stream. -/
def accepts (k : ConsoleWorker) : Bool := k.supported && !k.workerActive

def serveStart (k : ConsoleWorker) (u : Nat) : ConsoleWorker × StreamResponse :=
  if k.accepts then
    ({ k with
        workerActive := true
        desktopStream := some (u, .running)
        -- a task that has cleared the flag but not reported yet is on its own from now on
        strays := k.strays + (k.desktopStream.filter (·.2 = .closing)).toList.length }, .started)
  else (k, .error)

/-- The worker serves `StopDesktopStream` of viewer `u`. It waits for a task that is about to report
its end. -/
def serveStop (k : ConsoleWorker) (u : Nat) : Option ConsoleWorker :=
  match k.desktopStream with
  -- the handle of the task is awaited
  | some (_, .closing) => none
  | some (v, .running) =>
    some { k with workerActive := false, desktopStream := none, stopped := k.stopped ++ [(u, v)] }
  | _ => some { k with workerActive := false, desktopStream := none }

end ConsoleWorker

namespace ConsoleWorkerPool

def new : ConsoleWorkerPool := ⟨[], [], 0, none⟩

def goTo (s : ConsoleWorkerPool) (u : Nat) (p : ViewerPhase) : ConsoleWorkerPool :=
  { s with viewers := s.viewers.set u p }

def update (s : ConsoleWorkerPool) (w : Nat) (k : ConsoleWorker) : ConsoleWorkerPool :=
  { s with workers := s.workers.set w k }

/-- The claim lock is given up. -/
def release (s : ConsoleWorkerPool) : ConsoleWorkerPool := { s with desktopClaim := none }

/-- A stop in a display switch gives up the claim lock when it fails. -/
def releaseFor (s : ConsoleWorkerPool) : Cause → ConsoleWorkerPool
  | .finish => s
  | .switch _ _ => s.release

def claimDesktopStream (s : ConsoleWorkerPool) (u : Nat) :
    Move → ViewerPhase → Option ConsoleWorkerPool
  | .lock, .claiming takeOver =>
    if s.desktopClaim.isNone then
      some { s.goTo u (if takeOver then .bumping else .checking) with desktopClaim := some u }
    else none
  | .current none, .checking => some (s.release.goTo u .finished)
  | .current (some w), .checking => some (s.goTo u (.probing w))
  -- a view-only device does not push another viewer off
  | .load, .probing w =>
    s.workers[w]?.map fun k =>
      if k.desktopStreamActive then s.release.goTo u .finished else s.goTo u .bumping
  -- from here on the viewer that has the stream sees that it is taken over
  | .bump, .bumping =>
    some { s.goTo u (.waiting (s.desktopOwner + 1)) with desktopOwner := s.desktopOwner + 1 }
  | .current none, .waiting _ => some (s.release.goTo u .finished)
  | .current (some w), .waiting id => some (s.goTo u (.testing id w))
  -- the flag is all that is looked at; whose stream it stood for is not recorded
  | .load, .testing id w =>
    s.workers[w]?.map fun k =>
      s.goTo u (if k.desktopStreamActive then .sleeping id else .swapping (.claim id) w)
  | .retry, .sleeping id => some (s.goTo u (.waiting id))
  -- `TAKEOVER_WAIT` has passed
  | .expire, .sleeping _ => some (s.release.goTo u .finished)
  | _, _ => none

def startDesktopStream (s : ConsoleWorkerPool) (u : Nat) :
    Move → ViewerPhase → Option ConsoleWorkerPool
  | .swap, .swapping p w =>
    s.workers[w]?.map fun k =>
      if k.desktopReady && !k.desktopStreamActive then
        (s.update w { k with desktopStreamActive := true }).goTo u (.subscribing p w)
      -- not ready, or already active; the flag stays as it is
      else s.release.goTo u (p.failed w)
  | .subscribe, .subscribing p w =>
    s.workers[w]?.map fun k => s.goTo u (.startQueued p w k.endings)
  | .write true, .startQueued p w seen =>
    s.workers[w]?.bind fun k => (k.send u .start).map fun k' =>
      (s.update w k').goTo u (.startSent p w seen k.responses.head?)
  | .write false, .startQueued p w _ => some (s.goTo u (.clearing p w))
  -- the claim lock is held up to here
  | .receive, .startSent p w seen (some .started) =>
    s.workers[w]?.map fun k =>
      (s.update w { k with requestLock := none }).release.goTo u (.streaming p.id w seen)
  | .receive, .startSent p w _ (some _) =>
    s.workers[w]?.map fun k =>
      (s.update w { k with requestLock := none }).goTo u (.clearing p w)
  -- the response channel is closed, but the worker may still serve the request
  | .fail, .startSent p w _ _ =>
    s.workers[w]?.bind fun k =>
      if k.readerEnded then
        some ((s.update w { k with requestLock := none }).goTo u (.clearing p w))
      else none
  -- whatever the flag says by now, it is cleared
  | .clear, .clearing p w =>
    s.workers[w]?.map fun k =>
      (s.update w { k with desktopStreamActive := false }).release.goTo u (p.failed w)
  | _, _ => none

def stopDesktopStream (s : ConsoleWorkerPool) (u : Nat) :
    Move → ViewerPhase → Option ConsoleWorkerPool
  -- the flag is down before the worker hears of the stop
  | .store, .storing c w =>
    s.workers[w]?.map fun k =>
      (s.update w { k with desktopStreamActive := false }).goTo u (.stopQueued c w)
  | .write true, .stopQueued c w =>
    s.workers[w]?.bind fun k => (k.send u .stop).map fun k' =>
      (s.update w k').goTo u (.stopSent c w k.responses.head?)
  | .write false, .stopQueued c w => some ((s.releaseFor c).goTo u (c.failed w))
  | .receive, .stopSent c w (some .stopped) =>
    s.workers[w]?.map fun k => (s.update w { k with requestLock := none }).goTo u (c.done w)
  | .receive, .stopSent c w (some _) =>
    s.workers[w]?.map fun k =>
      ((s.update w { k with requestLock := none }).releaseFor c).goTo u (c.failed w)
  | .fail, .stopSent c w _ =>
    s.workers[w]?.bind fun k =>
      if k.readerEnded then
        some (((s.update w { k with requestLock := none }).releaseFor c).goTo u (c.failed w))
      else none
  | _, _ => none

/-- `switch_desktop_display` up to its stop: it tries the claim lock and checks the owner and the
worker. -/
def switchDesktopDisplay (s : ConsoleWorkerPool) (u : Nat) :
    Move → ViewerPhase → Option ConsoleWorkerPool
  -- `try_lock`: a claim in progress is not waited for
  | .switchDisplay, .streaming id w seen =>
    if s.desktopClaim.isNone then
      some { s.goTo u (.checkingOwner id w seen) with desktopClaim := some u }
    else some (s.goTo u (.judging id w seen))
  | .checkOwner, .checkingOwner id w seen =>
    s.workers[w]?.map fun k =>
      if s.desktopOwner = id ∧ k.displaySwitch = true then
        s.goTo u (.storing (.switch id seen) w)
      else s.release.goTo u (.judging id w seen)
  | _, _ => none

/-- The viewer's own code. After a failed switch it goes on if the stream seems to be active, and
ends without a stop if not. -/
def streamAuthenticatedDesktop (s : ConsoleWorkerPool) (u : Nat) :
    Move → ViewerPhase → Option ConsoleWorkerPool
  | .approach takeOver, .arriving => some (s.goTo u (.claiming takeOver))
  | .refuse, .arriving => some (s.goTo u .finished)
  -- another viewer has raised the owner counter
  | .takenOver, .streaming id w _ =>
    if s.desktopOwner = id then none else some (s.goTo u (.storing .finish w))
  | .leave, .streaming _ w _ => some (s.goTo u (.storing .finish w))
  -- an ending after the subscription of this stream
  | .frameError, .streaming _ w seen =>
    s.workers[w]?.bind fun k =>
      if seen < k.endings then some (s.goTo u (.waitingLogin w)) else none
  -- `taken_over` is not polled during the wait
  | .loginScreen, .waitingLogin w => some (s.goTo u (.storing .finish w))
  -- after a failed switch an active flag is taken for the viewer's own stream
  | .load, .judging id w seen =>
    s.workers[w]?.map fun k =>
      s.goTo u (if k.desktopStreamActive then .streaming id w seen else .finished)
  | _, _ => none

def stepViewer (s : ConsoleWorkerPool) (u : Nat) (m : Move) (p : ViewerPhase) :
    Option ConsoleWorkerPool :=
  (s.streamAuthenticatedDesktop u m p).or <| (s.claimDesktopStream u m p).or <|
    (s.startDesktopStream u m p).or <| (s.stopDesktopStream u m p).or <|
      s.switchDesktopDisplay u m p

/-- A response for viewer `u`, which the reader task passes on as long as it runs. -/
def answer (s : ConsoleWorkerPool) (k : ConsoleWorker) (u : Nat) (f : ViewerPhase → ViewerPhase) :
    ConsoleWorkerPool :=
  if k.readerEnded then s else { s with viewers := s.viewers.modify u f }

/-- Worker `w`, which was at `k` and is now at `k'`, responds to a request. The response is for the
viewer that holds the request lock, if it waits for one. -/
def respond (s : ConsoleWorkerPool) (w : Nat) (k k' : ConsoleWorker) (r : StreamResponse) :
    ConsoleWorkerPool :=
  match k.requestLock.filter fun u => (s.viewers[u]?.bind (·.awaits)).any (·.1 = w) with
  | some u => (s.update w k').answer k u (ViewerPhase.answered w r)
  | none =>
    s.update w (if k.readerEnded then k' else { k' with responses := k'.responses ++ [r] })

def serve (s : ConsoleWorkerPool) (w : Nat) (k : ConsoleWorker) : Option ConsoleWorkerPool :=
  match k.wire with
  | [] => none
  | (u, .start) :: rest =>
    -- the response is written before the task can send a frame
    let (k', r) := { k with wire := rest }.serveStart u
    some (s.respond w k k' r)
  | (u, .stop) :: rest =>
    ({ k with wire := rest }.serveStop u).map fun k' => s.respond w k k' .stopped

/-- What happens at worker `w` apart from requests. -/
def stepTask (k : ConsoleWorker) : WorkerEvent → Option ConsoleWorker
  | .taskEnds =>
    match k.desktopStream with
    | some (v, .running) =>
      -- the flag first, the report after it
      some { k with workerActive := false, desktopStream := some (v, .closing) }
    | _ => none
  | .taskReports =>
    match k.desktopStream with
    | some (v, .closing) =>
      some { k with desktopStream := some (v, .ended), notices := k.notices + 1 }
    | _ => none
  | .strayReports =>
    if 0 < k.strays then
      some { k with strays := k.strays - 1, notices := k.notices + 1 }
    else none
  | .readerReads =>
    if 0 < k.notices ∧ k.readerEnded = false ∧ k.telling = false then
      some { k with
        notices := k.notices - 1, telling := true, desktopStreamActive := false }
    else none
  -- a viewer may set the flag and subscribe before this
  | .readerTells =>
    if k.telling then some { k with telling := false, endings := k.endings + 1 } else none
  | .readerEnds =>
    if k.readerEnded || k.telling then none
    else some { k with
      readerEnded := true, endings := k.endings + 1, desktopStreamActive := false }
  | .abandoned =>
    if k.requestLock.isNone && !k.readerEnded then
      some { k with responses := k.responses ++ [.error] }
    else none
  | .serve => none

def step (s : ConsoleWorkerPool) : DesktopAction → Option ConsoleWorkerPool
  | .join => some { s with viewers := s.viewers ++ [.arriving] }
  | .attach desktopReady displaySwitch supported =>
    some { s with workers := s.workers ++ [{ desktopReady, displaySwitch, supported }] }
  | .viewer u m => s.viewers[u]?.bind fun p => s.stepViewer u m p
  | .worker w e =>
    s.workers[w]?.bind fun k =>
      match e with
      | .serve => s.serve w k
      | _ => (stepTask k e).map (s.update w)

/-- No response is left over. -/
def Fresh (s : ConsoleWorkerPool) : Prop :=
  ∀ (w : Nat) (k : ConsoleWorker), s.workers[w]? = some k → k.responses = []

/-! ## What a step can do

While no response is left over, a viewer that has written its request waits for the response. -/

/-- Viewer `u` moves from one phase to another; the last argument is the pool but for its phase. -/
inductive ViewerMove (s : ConsoleWorkerPool) (u : Nat) :
    Move → ViewerPhase → ViewerPhase → ConsoleWorkerPool → Prop where
  | approach (b : Bool) : ViewerMove s u (.approach b) .arriving (.claiming b) s
  | refuse : ViewerMove s u .refuse .arriving .finished s
  | takenOver {id w seen : Nat} :
      ViewerMove s u .takenOver (.streaming id w seen) (.storing .finish w) s
  | leave {id w seen : Nat} : ViewerMove s u .leave (.streaming id w seen) (.storing .finish w) s
  | frameError {id w seen : Nat} :
      ViewerMove s u .frameError (.streaming id w seen) (.waitingLogin w) s
  | loginScreen {w : Nat} : ViewerMove s u .loginScreen (.waitingLogin w) (.storing .finish w) s
  | resume {id w seen : Nat} :
      ViewerMove s u .load (.judging id w seen) (.streaming id w seen) s
  | giveUp {id w seen : Nat} : ViewerMove s u .load (.judging id w seen) .finished s
  | lock (b : Bool) (h : s.desktopClaim = none) :
      ViewerMove s u .lock (.claiming b) (if b then .bumping else .checking)
        { s with desktopClaim := some u }
  | noWorker : ViewerMove s u (.current none) .checking .finished s.release
  | probe (w : Nat) : ViewerMove s u (.current (some w)) .checking (.probing w) s
  | busy {w : Nat} : ViewerMove s u .load (.probing w) .finished s.release
  | free {w : Nat} {k : ConsoleWorker} (hk : s.workers[w]? = some k)
      (h : ¬k.desktopStreamActive) : ViewerMove s u .load (.probing w) .bumping s
  | bump : ViewerMove s u .bump .bumping (.waiting (s.desktopOwner + 1))
      { s with desktopOwner := s.desktopOwner + 1 }
  | gone {id : Nat} : ViewerMove s u (.current none) (.waiting id) .finished s.release
  | test {id : Nat} (w : Nat) : ViewerMove s u (.current (some w)) (.waiting id) (.testing id w) s
  | sleep {id w : Nat} : ViewerMove s u .load (.testing id w) (.sleeping id) s
  | ready {id w : Nat} : ViewerMove s u .load (.testing id w) (.swapping (.claim id) w) s
  | retry {id : Nat} : ViewerMove s u .retry (.sleeping id) (.waiting id) s
  | expire {id : Nat} : ViewerMove s u .expire (.sleeping id) .finished s.release
  | swap {q : Purpose} {w : Nat} {k : ConsoleWorker} (hk : s.workers[w]? = some k) :
      ViewerMove s u .swap (.swapping q w) (.subscribing q w)
        (s.update w { k with desktopStreamActive := true })
  | swapFails {q : Purpose} {w : Nat} :
      ViewerMove s u .swap (.swapping q w) (q.failed w) s.release
  | subscribe {q : Purpose} {w : Nat} (seen : Nat) :
      ViewerMove s u .subscribe (.subscribing q w) (.startQueued q w seen) s
  | sendStart {q : Purpose} {w seen : Nat} {k : ConsoleWorker} (hk : s.workers[w]? = some k)
      (hfree : k.requestLock = none) :
      ViewerMove s u (.write true) (.startQueued q w seen) (.startSent q w seen none)
        (s.update w { k with requestLock := some u, wire := k.wire ++ [(u, .start)] })
  | startLost {q : Purpose} {w seen : Nat} :
      ViewerMove s u (.write false) (.startQueued q w seen) (.clearing q w) s
  | started {q : Purpose} {w seen : Nat} {k : ConsoleWorker} (hk : s.workers[w]? = some k) :
      ViewerMove s u .receive (.startSent q w seen (some .started)) (.streaming q.id w seen)
        (s.update w { k with requestLock := none }).release
  | refused {q : Purpose} {w seen : Nat} {r : StreamResponse} {k : ConsoleWorker}
      (hk : s.workers[w]? = some k) (hr : r ≠ .started) :
      ViewerMove s u .receive (.startSent q w seen (some r)) (.clearing q w)
        (s.update w { k with requestLock := none })
  | startFails {q : Purpose} {w seen : Nat} {r : Option StreamResponse} {k : ConsoleWorker}
      (hk : s.workers[w]? = some k) (hended : k.readerEnded = true) :
      ViewerMove s u .fail (.startSent q w seen r) (.clearing q w)
        (s.update w { k with requestLock := none })
  | clear {q : Purpose} {w : Nat} {k : ConsoleWorker} (hk : s.workers[w]? = some k) :
      ViewerMove s u .clear (.clearing q w) (q.failed w)
        (s.update w { k with desktopStreamActive := false }).release
  | store {c : Cause} {w : Nat} {k : ConsoleWorker} (hk : s.workers[w]? = some k) :
      ViewerMove s u .store (.storing c w) (.stopQueued c w)
        (s.update w { k with desktopStreamActive := false })
  | sendStop {c : Cause} {w : Nat} {k : ConsoleWorker} (hk : s.workers[w]? = some k)
      (hfree : k.requestLock = none) :
      ViewerMove s u (.write true) (.stopQueued c w) (.stopSent c w none)
        (s.update w { k with requestLock := some u, wire := k.wire ++ [(u, .stop)] })
  | stopLost {c : Cause} {w : Nat} :
      ViewerMove s u (.write false) (.stopQueued c w) (c.failed w) (s.releaseFor c)
  | stopped {c : Cause} {w : Nat} {k : ConsoleWorker} (hk : s.workers[w]? = some k) :
      ViewerMove s u .receive (.stopSent c w (some .stopped)) (c.done w)
        (s.update w { k with requestLock := none })
  | notStopped {c : Cause} {w : Nat} {r : StreamResponse} {k : ConsoleWorker}
      (hk : s.workers[w]? = some k) :
      ViewerMove s u .receive (.stopSent c w (some r)) (c.failed w)
        ((s.update w { k with requestLock := none }).releaseFor c)
  | stopFails {c : Cause} {w : Nat} {r : Option StreamResponse} {k : ConsoleWorker}
      (hk : s.workers[w]? = some k) (hended : k.readerEnded = true) :
      ViewerMove s u .fail (.stopSent c w r) (c.failed w)
        ((s.update w { k with requestLock := none }).releaseFor c)
  | switch {id w seen : Nat} (h : s.desktopClaim = none) :
      ViewerMove s u .switchDisplay (.streaming id w seen) (.checkingOwner id w seen)
        { s with desktopClaim := some u }
  | switchBusy {id w seen : Nat} :
      ViewerMove s u .switchDisplay (.streaming id w seen) (.judging id w seen) s
  | owner {id w seen : Nat} :
      ViewerMove s u .checkOwner (.checkingOwner id w seen) (.storing (.switch id seen) w) s
  | notOwner {id w seen : Nat} :
      ViewerMove s u .checkOwner (.checkingOwner id w seen) (.judging id w seen) s.release

/-- What happens in a step: a viewer joins or moves, a worker is attached, serves a request or
changes on its own. -/
inductive StepMove (s : ConsoleWorkerPool) : DesktopAction → ConsoleWorkerPool → Prop where
  | join : StepMove s .join { s with viewers := s.viewers ++ [.arriving] }
  | attach (desktopReady displaySwitch supported : Bool) :
      StepMove s (.attach desktopReady displaySwitch supported)
        { s with workers := s.workers ++ [{ desktopReady, displaySwitch, supported }] }
  | viewer {u : Nat} {m : Move} {p p' : ViewerPhase} {t : ConsoleWorkerPool}
      (hp : s.viewers[u]? = some p) (h : ViewerMove s u m p p' t) :
      StepMove s (.viewer u m) (t.goTo u p')
  | serve {w : Nat} {k : ConsoleWorker} {t : ConsoleWorkerPool} (hk : s.workers[w]? = some k)
      (h : s.serve w k = some t) : StepMove s (.worker w .serve) t
  | task {w : Nat} {e : WorkerEvent} {k k' : ConsoleWorker} (he : e ≠ .serve)
      (hkept : e ≠ .abandoned) (hk : s.workers[w]? = some k) (h : stepTask k e = some k') :
      StepMove s (.worker w e) (s.update w k')

section Steps

variable {s t : ConsoleWorkerPool} {u : Nat} {m : Move} {p : ViewerPhase} {a : DesktopAction}

theorem send_eq_some {k k' : ConsoleWorker} {r : StreamRequest} (hnil : k.responses = [])
    (h : k.send u r = some k') : k.requestLock = none ∧
      k' = { k with requestLock := some u, wire := k.wire ++ [(u, r)] } := by
  obtain ⟨hfree, ⟨⟩⟩ := ite_none_right_eq_some.1 h
  exact ⟨isNone_iff_eq_none.1 hfree, by rw [hnil]; rfl⟩

theorem ViewerMove.of_stepViewer (hfresh : s.Fresh) (h : s.stepViewer u m p = some t) :
    ∃ p' t', ViewerMove s u m p p' t' ∧ t = t'.goTo u p' := by
  simp only [stepViewer, or_eq_some_iff] at h
  rcases h with h | ⟨-, h | ⟨-, h | ⟨-, h | ⟨-, h⟩⟩⟩⟩
  · unfold streamAuthenticatedDesktop at h
    split at h
    case h_3 =>
      obtain ⟨-, ⟨⟩⟩ := ite_none_left_eq_some.1 h
      exact ⟨_, _, .takenOver, rfl⟩
    case h_5 =>
      obtain ⟨k, -, h⟩ := bind_eq_some_iff.1 h
      obtain ⟨-, ⟨⟩⟩ := ite_none_right_eq_some.1 h
      exact ⟨_, _, .frameError, rfl⟩
    case h_7 =>
      obtain ⟨k, -, rfl⟩ := map_eq_some_iff.1 h
      split <;> exact ⟨_, _, by constructor, rfl⟩
    case h_8 => cases h
    all_goals
      cases h
      exact ⟨_, _, by constructor, rfl⟩
  · unfold claimDesktopStream at h
    split at h
    case h_1 takeOver =>
      obtain ⟨hfree, ⟨⟩⟩ := ite_none_right_eq_some.1 h
      exact ⟨_, _, .lock takeOver (isNone_iff_eq_none.1 hfree), rfl⟩
    case h_4 w =>
      obtain ⟨k, hk, rfl⟩ := map_eq_some_iff.1 h
      split
      · exact ⟨_, _, .busy, rfl⟩
      · exact ⟨_, _, .free hk ‹_›, rfl⟩
    case h_5 =>
      cases h
      exact ⟨_, _, .bump, rfl⟩
    case h_8 =>
      obtain ⟨k, -, rfl⟩ := map_eq_some_iff.1 h
      split <;> exact ⟨_, _, by constructor, rfl⟩
    case h_11 => cases h
    all_goals
      cases h
      exact ⟨_, _, by constructor, rfl⟩
  · unfold startDesktopStream at h
    split at h
    case h_1 =>
      obtain ⟨k, hk, rfl⟩ := map_eq_some_iff.1 h
      split
      · exact ⟨_, _, .swap hk, rfl⟩
      · exact ⟨_, _, .swapFails, rfl⟩
    case h_3 =>
      obtain ⟨k, hk, h⟩ := bind_eq_some_iff.1 h
      obtain ⟨k', hsend, rfl⟩ := map_eq_some_iff.1 h
      obtain ⟨hfree, rfl⟩ := send_eq_some (hfresh _ k hk) hsend
      exact ⟨_, _, .sendStart hk hfree, by rw [hfresh _ k hk]; rfl⟩
    case h_4 =>
      cases h
      exact ⟨_, _, .startLost, rfl⟩
    case h_6 hr =>
      obtain ⟨k, hk, rfl⟩ := map_eq_some_iff.1 h
      exact ⟨_, _, .refused hk hr, rfl⟩
    case h_7 =>
      obtain ⟨k, hk, h⟩ := bind_eq_some_iff.1 h
      obtain ⟨hended, ⟨⟩⟩ := ite_none_right_eq_some.1 h
      exact ⟨_, _, .startFails hk hended, rfl⟩
    case h_9 => cases h
    all_goals
      obtain ⟨k, hk, rfl⟩ := map_eq_some_iff.1 h
      exact ⟨_, _, by constructor <;> exact hk, rfl⟩
  · unfold stopDesktopStream at h
    split at h
    case h_2 =>
      obtain ⟨k, hk, h⟩ := bind_eq_some_iff.1 h
      obtain ⟨k', hsend, rfl⟩ := map_eq_some_iff.1 h
      obtain ⟨hfree, rfl⟩ := send_eq_some (hfresh _ k hk) hsend
      exact ⟨_, _, .sendStop hk hfree, by rw [hfresh _ k hk]; rfl⟩
    case h_3 =>
      cases h
      exact ⟨_, _, .stopLost, rfl⟩
    case h_6 =>
      obtain ⟨k, hk, h⟩ := bind_eq_some_iff.1 h
      obtain ⟨hended, ⟨⟩⟩ := ite_none_right_eq_some.1 h
      exact ⟨_, _, .stopFails hk hended, rfl⟩
    case h_7 => cases h
    all_goals
      obtain ⟨k, hk, rfl⟩ := map_eq_some_iff.1 h
      exact ⟨_, _, by constructor; exact hk, rfl⟩
  · unfold switchDesktopDisplay at h
    split at h
    case h_1 =>
      split at h <;> cases h
      · exact ⟨_, _, .switch (isNone_iff_eq_none.1 ‹_›), rfl⟩
      · exact ⟨_, _, .switchBusy, rfl⟩
    case h_2 =>
      obtain ⟨k, -, rfl⟩ := map_eq_some_iff.1 h
      split <;> exact ⟨_, _, by constructor, rfl⟩
    case h_3 => cases h

theorem StepMove.of_step (hfresh : s.Fresh) (hlost : ∀ w, a ≠ .worker w .abandoned)
    (h : s.step a = some t) : StepMove s a t := by
  cases a with
  | join | attach =>
    cases h
    constructor
  | viewer u m =>
    obtain ⟨p, hp, h⟩ := bind_eq_some_iff.1 h
    obtain ⟨p', t', hmove, rfl⟩ := ViewerMove.of_stepViewer hfresh h
    exact .viewer hp hmove
  | worker w e =>
    obtain ⟨k, hk, h⟩ := bind_eq_some_iff.1 h
    cases e
    case serve => exact .serve hk h
    case abandoned => exact absurd rfl (hlost w)
    all_goals
      obtain ⟨k', hk', rfl⟩ := map_eq_some_iff.1 h
      exact .task nofun nofun hk hk'

end Steps

end ConsoleWorkerPool

end RivetLink.Agent
