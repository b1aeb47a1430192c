import RivetLink.Foundation.Transition
import RivetLink.Sdk.DirectSession
import RivetLink.Sdk.LanMessages

/-!
# A LAN session of the agent

`LanSession` is the host's side of one LAN connection after the handshake: `serve_loop`, which
answers requests until the client starts a stream, and `stream_screen`, which then runs to the end
of the session. A `Phase` names the place where the session waits. An `Action` is what ends the
wait: a request of the client, the result of a capture or of the display listing, the host's
decision, a frame from the capture thread; or a change that the embedding application makes through
one of its watch channels, at any time. `LanSession.step` is one such action.

The state also records what was sent to the client (`sent`), what the host was asked (`asked`),
whether `ask_consent` has returned true (`granted`), the events reported to the application and the
input passed to the injector. A response counts as sent even if sending it failed, since part of it
may have arrived.

The model is the Linux host. `labelClient` connects a session with the handshake it comes from.
-/

namespace RivetLink.Agent

open RivetLink.Foundation RivetLink.Sdk

/-! ## From the handshake to the session -/

/-- How a host authenticates clients. The trusted keys are behind a lock; `none` is a poisoned
one. -/
inductive LanAuth where
  | password (pin : Str)
  | key (trusted : Str → Bool) (autoAccept : Bool)
  | pinOrKey (pin : Str) (trustedKeys : Option (List Str)) (autoAccept : Bool)

/-- The check of a client's identity in key mode. -/
def LanAuth.trusts : LanAuth → Str → Bool
  | .password _, _ => false
  | .key trusted autoAccept, id => autoAccept || trusted id
  | .pinOrKey _ trustedKeys autoAccept, id =>
    autoAccept || trustedKeys.any fun keys => keys.any (· = id)

/-- The side of the handshake that `handle` runs. -/
def LanAuth.config (identity : FixedBytes 32) (auth : LanAuth) : Config :=
  match auth with
  | .password pin => .hostPassword pin
  | .key _ _ => .hostKey identity auth.trusts
  | .pinOrKey pin _ _ => .hostAuto identity pin auth.trusts

/-- The label of an authenticated client and whether it needs the host's consent. -/
def labelClient (clientId : Option Str) (peerIp : Str) : Str × Bool :=
  match clientId with
  | some id => (id, false)
  | none => (peerIp, true)

/-! ## The session -/

/-- A watch channel as its receiver sees it: the current value, whether it has changed since the
receiver last waited for a change, and whether the sender is gone. -/
structure Watch (α : Type) where
  value : α
  unseen : Bool
  closed : Bool
  deriving DecidableEq

/-- The wait for a change returns at once if there is one, or if there cannot be any more. -/
def Watch.ready {α : Type} (w : Watch α) : Bool := w.unseen || w.closed

def Watch.send {α : Type} (w : Watch α) (value : α) : Watch α :=
  if w.closed then w else { w with value := value, unseen := true }

def Watch.seen {α : Type} (w : Watch α) : Watch α := { w with unseen := false }

def shareAllNow (shareAll : Option (Watch Bool)) : Bool := shareAll.all (·.value)

def controlNow (control : Option (Watch Bool)) : Bool := control.all (·.value)

/-- The displays to offer, given those of the host. -/
def allowedDisplays (shareAll : Bool) (displaysForHost : List DisplayInfo) : List DisplayInfo :=
  if shareAll then displaysForHost else displaysForHost.take 1

def wantsH264 (codecs : List Str) : Bool := codecs.any (· = codecH264)

/-- How the host's decision about a client may end. -/
inductive ConsentReply where
  | appGone
  | timedOut
  | replyDropped
  | replied (accept : Bool)
  deriving DecidableEq

def ConsentReply.accepted : ConsentReply → Bool
  | .replied accept => accept
  | _ => false

structure ConsentRequest where
  key : Option Str
  name : Str
  deriving DecidableEq

inductive HostEvent where
  | clientConnected (label : Str) (key : Option Str)
  | clientDisconnected
  deriving DecidableEq

inductive InputAction where
  | move (x y : UInt16)
  | button (button : PtrButton) (down : Bool)
  | scroll (dx dy : Int16)
  | key (code : Str) (down : Bool)
  deriving DecidableEq

def inputAction : LanRequest → Option InputAction
  | .pointerMove x y => some (.move x y)
  | .pointerButton button down => some (.button button down)
  | .scroll dx dy => some (.scroll dx dy)
  | .key code down => some (.key code down)
  | _ => none

/-- What `serve_loop` has worked out when it starts a stream. -/
structure StreamStart where
  fps : UInt16
  display : Option UInt32
  h264 : Bool
  who : Str
  key : Option Str
  deriving DecidableEq

/-- Where `stream_screen` waits: for the next event, for a display listing asked for by the client
or made because sharing was toggled, or for the old capture to stop. -/
inductive StreamWait where
  | select
  | listing (shareAll : Bool)
  | toggled (on : Bool)
  | switching (display : UInt32)
  deriving DecidableEq

/-- The variables of `stream_screen`. `video` holds whether a keyframe was requested; `injector` is
the display that the input session is bound to. -/
structure Stream where
  fps : UInt16
  display : Option UInt32
  h264 : Bool
  video : Option Bool
  injector : Option (Option UInt32)
  wait : StreamWait
  deriving DecidableEq

inductive Phase where
  | serving
  | capturing
  | listing (shareAll : Bool)
  | asking (start : StreamStart)
  | streaming (st : Stream)
  | ended
  deriving DecidableEq

/-- The arguments of `serve_loop` that do not change: whether this client needs consent, whether the
host can be asked for it, the client's label, and whether events are reported. -/
structure SessionConfig where
  needsConsent : Bool
  consent : Bool
  label : Str
  events : Bool

structure LanSession where
  config : SessionConfig
  phase : Phase
  kick : Option (Watch Unit)
  shareAll : Option (Watch Bool)
  control : Option (Watch Bool)
  sent : List LanResponse
  asked : List ConsentRequest
  granted : Bool
  events : List HostEvent
  injected : List (Option UInt32 × InputAction)

def LanSession.new (config : SessionConfig) (kick : Option (Watch Unit))
    (shareAll control : Option (Watch Bool)) : LanSession where
  config := config
  phase := .serving
  kick := kick
  shareAll := shareAll
  control := control
  sent := []
  asked := []
  granted := false
  events := []
  injected := []

/-- A change that the embedding application makes. -/
inductive HostChange where
  | kick
  | shareAll (on : Bool)
  | control (on : Bool)
  | kickGone
  | shareAllGone
  deriving DecidableEq

/-- What a session waits for, and changes by the host. -/
inductive Action where
  | request (r : Option LanRequest)
  | captured (png : Except String Bytes) (sendOk : Bool)
  | displays (displaysForHost : List DisplayInfo) (sendOk : Bool)
  | decided (reply : ConsentReply)
  | frame (frame : StreamFrame) (sendOk : Bool)
  | captureEnded (reason : String)
  | control (r : Option LanRequest)
  | kicked
  | shareChanged
  | captureStopped
  | host (change : HostChange)

namespace LanSession

/-- Send a response whose failure is ignored. -/
def send (s : LanSession) (r : LanResponse) : LanSession := { s with sent := s.sent ++ [r] }

/-- Send a response whose failure ends the session. -/
def respond (s : LanSession) (r : LanResponse) (sendOk : Bool) : LanSession :=
  { s.send r with phase := if sendOk then .serving else .ended }

def report (s : LanSession) (e : HostEvent) : LanSession :=
  if s.config.events then { s with events := s.events ++ [e] } else s

/-- Enter `stream_screen`. -/
def connect (s : LanSession) (start : StreamStart) : LanSession :=
  { s.report (.clientConnected start.who start.key) with
    phase := .streaming
      { fps := start.fps, display := start.display, h264 := start.h264,
        video := if start.h264 then some false else none, injector := none, wait := .select } }

/-- `stream_screen` returns, and the session ends. -/
def disconnect (s : LanSession) : LanSession :=
  { s.report .clientDisconnected with phase := .ended }

def streamOn (s : LanSession) (st : Stream) : LanSession := { s with phase := .streaming st }

section Requests

variable (S : SignatureScheme) (B : Base64)

/-- The parameters of the stream that a client asks for. -/
def streamStart (s : LanSession) (fps : UInt16) (display : Option UInt32)
    (name identityKey identitySig : Option Str) (codecs : List Str) : StreamStart where
  fps := fps
  display := if shareAllNow s.shareAll then display else none
  h264 := wantsH264 codecs
  who := (name.filter fun n => n.trim.chars ≠ []).getD s.config.label
  -- an identity without a valid proof is not passed on
  key := match identityKey, identitySig with
    | some key, some sig => verifyIdentity S B key sig
    | _, _ => none

/-- Ask the host first if this client needs consent and there is someone to ask. -/
def requestStream (s : LanSession) (start : StreamStart) : LanSession :=
  -- a host without a consent channel is not asked
  if s.config.needsConsent && s.config.consent then
    { s with phase := .asking start, asked := s.asked ++ [⟨start.key, start.who⟩] }
  else s.connect start

/-- A request outside a stream; `none` is a failed read, which ends the session. -/
def onRequest (s : LanSession) : Option LanRequest → LanSession
  | none => { s with phase := .ended }
  -- the capture starts without a look at `needsConsent`
  | some .screenshot => { s with phase := .capturing }
  | some .listDisplays => { s with phase := .listing (shareAllNow s.shareAll) }
  | some (.startStream fps display name identityKey identitySig codecs) =>
    s.requestStream (s.streamStart S B fps display name identityKey identitySig codecs)
  -- input and stream requests mean nothing outside a stream
  | some _ => s

def screenshotResponse : Except String Bytes → LanResponse
  | .ok png => .screenshot (B.encode png)
  | .error e => .error e

def onDecided (s : LanSession) (start : StreamStart) (reply : ConsentReply) : LanSession :=
  if reply.accepted then { s with granted := true }.connect start
  else { s.send (.error "the host declined the connection") with phase := .ended }

/-- Input goes to the injector, which is bound to the current display on first use. -/
def applyInput (s : LanSession) (st : Stream) (input : InputAction) : LanSession :=
  -- a display switch that keeps the display keeps the injector
  let bound := st.injector.getD st.display
  { s.streamOn { st with injector := some bound } with injected := s.injected ++ [(bound, input)] }

/-- A request during a stream; `none` is the end of the reader task. -/
def onControl (s : LanSession) (st : Stream) : Option LanRequest → LanSession
  | none => s.disconnect
  -- ignored unless all displays are shared
  | some (.switchDisplay display) =>
    if shareAllNow s.shareAll then s.streamOn { st with wait := .switching display } else s
  | some .listDisplays => s.streamOn { st with wait := .listing (shareAllNow s.shareAll) }
  | some .requestKeyframe => s.streamOn { st with video := st.video.map fun _ => true }
  | some r =>
    match inputAction r with
    -- input is dropped while control is off
    | some input => if controlNow s.control then s.applyInput st input else s
    | none => s

/-- Where the stream goes on after sharing was toggled: back to the first display if the others are
no longer shared. -/
def afterToggle (st : Stream) (on : Bool) (displays : List DisplayInfo) : StreamWait :=
  let alreadyPrimary := st.display = none ∨ st.display = displays.head?.map (·.id)
  match displays with
  | first :: _ => if on = false ∧ ¬ alreadyPrimary then .switching first.id else .select
  | [] => .select

/-- Sharing was toggled and the displays are listed: tell the client. -/
def onToggled (s : LanSession) (st : Stream) (on : Bool) (displays : List DisplayInfo) :
    LanSession :=
  (s.send (.displays displays [])).streamOn { st with wait := afterToggle st on displays }

/-- Capture the other display; the injector is kept only if the display stays the same. -/
def restart (s : LanSession) (st : Stream) (display : UInt32) : LanSession :=
  s.streamOn
    { st with
      display := some display
      video := if st.h264 then some false else none
      injector := if st.display = some display then st.injector else none
      wait := .select }

def onHost (s : LanSession) : HostChange → LanSession
  | .kick => { s with kick := s.kick.map (·.send ()) }
  | .shareAll on => { s with shareAll := s.shareAll.map (·.send on) }
  | .control on => { s with control := s.control.map (·.send on) }
  | .kickGone => { s with kick := s.kick.map fun w => { w with closed := true } }
  | .shareAllGone => { s with shareAll := s.shareAll.map fun w => { w with closed := true } }

/-- An event of the select loop in `stream_screen`. -/
def stepSelect (s : LanSession) (st : Stream) : Action → Option LanSession
  -- a frame that could not be sent ends the stream
  | .frame frame sendOk =>
    let s := s.send frame.response
    some (if sendOk then s else s.disconnect)
  -- the capture thread gave up: the client is told why
  | .captureEnded reason => some (s.send (.error reason)).disconnect
  | .control r => some (s.onControl st r)
  | .kicked => if s.kick.any Watch.ready then some s.disconnect else none
  | .shareChanged =>
    if s.shareAll.any Watch.ready then
      some ({ s with shareAll := s.shareAll.map Watch.seen }.streamOn
        { st with wait := .toggled (shareAllNow s.shareAll) })
    else none
  | _ => none

def step (s : LanSession) : Action → Option LanSession
  | .request r =>
    match s.phase with
    | .serving => some (s.onRequest S B r)
    | _ => none
  | .captured png sendOk =>
    match s.phase with
    -- requests that arrive during a capture wait for its end
    | .capturing => some (s.respond (screenshotResponse B png) sendOk)
    | _ => none
  | .displays displaysForHost sendOk =>
    match s.phase with
    | .listing on => some (s.respond (.displays (allowedDisplays on displaysForHost) []) sendOk)
    | .streaming st =>
      match st.wait with
      | .listing on => some ((s.send (.displays (allowedDisplays on displaysForHost) [])).streamOn
          { st with wait := .select })
      | .toggled on => some (s.onToggled st on (allowedDisplays on displaysForHost))
      | _ => none
    | _ => none
  | .decided reply =>
    match s.phase with
    | .asking start => some (s.onDecided start reply)
    | _ => none
  | .host change => some (s.onHost change)
  | .captureStopped =>
    match s.phase with
    | .streaming st =>
      match st.wait with
      | .switching display => some (s.restart st display)
      | _ => none
    | _ => none
  | other =>
    match s.phase with
    -- while displays are listed or switched the select loop does not run
    | .streaming st => if st.wait = .select then s.stepSelect st other else none
    | _ => none

end Requests

end LanSession

end RivetLink.Agent
