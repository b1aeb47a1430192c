import RivetLink.Sdk.DirectAgreement
import RivetLink.Sdk.PinPersistence

/-!
# Connecting in key mode

Any number of concurrent calls of `connect_key` and `connect_key_over` in one process, over the pins
they share. The network decides what each handshake receives and when it fails. `KeyCall.step` is
what one call can do next, in the atomic steps between which other calls run: a TCP connection, a
network event of a handshake, the insertion of a host into the pins, the return from `remember`, the
check of the pins before a classical retry.

The log of `KeyConnects` records what the calls have done, in order.
-/

namespace RivetLink.Sdk

open RivetLink.Foundation RivetLink.Crypto PqPins

/-! ## One handshake -/

/-- Kinds of I/O errors. -/
inductive IoKind where
  | unexpectedEof
  | connectionReset
  | connectionAborted
  | brokenPipe
  | other
  deriving DecidableEq

structure IoFailure where
  kind : IoKind
  text : String

/-- An error of a connect call; of an I/O error the kind counts. -/
inductive ConnectError where
  | io (e : IoFailure)
  | sdk (e : SdkError)

/-- The errors with which a host older than version 3 answers the hybrid hello. -/
def isOldHostClose : ConnectError → Bool
  | .io ⟨.unexpectedEof, _⟩ => true
  | .io ⟨.connectionReset, _⟩ => true
  | .io ⟨.connectionAborted, _⟩ => true
  | .io ⟨.brokenPipe, _⟩ => true
  | _ => false

inductive FrameError where
  | tooLarge
  | serde (message : String)

def FrameError.toSdk : FrameError → SdkError
  | .tooLarge => .crypto "handshake frame too large"
  | .serde message => .serde message

/-- What can happen to a handshake that waits. -/
inductive NetEvent where
  | message (msg : Wire)
  | badFrame (e : FrameError)
  /-- A read or a write fails. -/
  | ioError (e : IoFailure)
  | timeout

section Handshake

variable (P : Suite)

/-- What a handshake returns once it has received its messages; `none` while it waits. -/
def Session.returns (s : Session) : Option (Except ConnectError SealedChannel) :=
  (s.result P).map fun
    | .ok (channel, _) => .ok channel
    | .error e => .error (.sdk e)

def Session.receive (s : Session) (r : SdkResult Wire) : Session :=
  { s with inbox := s.inbox ++ [r] }

/-- `key_handshake` on an event: the handshake after it, and what it returns if it ends. -/
def Session.onEvent (s : Session) : NetEvent → Session × Option (Except ConnectError SealedChannel)
  | .message msg => (s.receive (.ok msg), (s.receive (.ok msg)).returns P)
  | .badFrame e => (s.receive (.error e.toSdk), (s.receive (.error e.toSdk)).returns P)
  | .ioError e =>
    -- once the host has answered, a closed connection is a failure of the handshake
    if s.inbox = [] then (s, some (.error (.io e)))
    else (s, some (.error (.sdk (closedAfterReply (.io e.text)))))
  | .timeout => (s, some (.error (.sdk (.crypto "direct-LAN handshake timed out"))))

end Handshake

/-! ## One call -/

inductive ConnectPhase where
  /-- Opening a TCP connection for a hybrid or a classical handshake. -/
  | connecting (hybrid : Bool)
  | handshaking (hybrid : Bool) (session : Session)
  /-- The hybrid handshake is completed; its host is to be remembered. -/
  | completed (session : Session) (channel : SealedChannel)
  /-- The host is inserted; `spawn` if a save is to be spawned. -/
  | inserted (session : Session) (channel : SealedChannel) (spawn : Bool)
  /-- The connection was closed on the hybrid hello. -/
  | closed
  | returned (result : Except ConnectError (Bool × SealedChannel))

structure KeyCall where
  /-- `connect_key_over`: the handshake runs over a stream that is already open. -/
  overStream : Bool
  identity : FixedBytes 32
  pinned : Option (FixedBytes 32)
  phase : ConnectPhase

inductive CallEvent where
  | started (hybrid : Bool)
  | completed (session : Session)
  | inserted (host : List Char)
  /-- The call of `remember` has returned. -/
  | remembered (host : List Char)
  | refused (reason : String)
  | returned (hybrid : Bool)

inductive CallAction where
  /-- The TCP connection succeeds, and a handshake starts, or it fails. -/
  | tcp (result : Except IoFailure Coins)
  | network (e : NetEvent)
  | remember
  | returnFromRemember
  | check

def hostText (P : Suite) (key : FixedBytes 32) : List Char := (P.b64.encode key.bytes).chars

namespace KeyCall

variable (P : Suite) (c : KeyCall)

def host : Option (List Char) := c.pinned.map (hostText P)

/-- What a call does when its handshake ends. -/
def afterHandshake (hybrid : Bool) (session : Session) :
    Except ConnectError SealedChannel → ConnectPhase × List CallEvent
  | .ok channel =>
    if hybrid then
      match c.pinned with
      | some _ => (.completed session channel, [.completed session])
      | none => (.returned (.ok (true, channel)), [.completed session, .returned true])
    else (.returned (.ok (false, channel)), [.completed session, .returned false])
  | .error e =>
    if hybrid && !c.overStream && isOldHostClose e then (.closed, [])
    else (.returned (.error e), [])

/-- A handshake goes on or ends. -/
def continueWith (hybrid : Bool) (session : Session) :
    Option (Except ConnectError SealedChannel) → ConnectPhase × List CallEvent
  | none => (.handshaking hybrid session, [])
  | some result => c.afterHandshake hybrid session result

def newSession (hybrid : Bool) (coins : Coins) : Session :=
  ⟨.clientKey c.identity c.pinned hybrid, coins, []⟩

def startHandshake (hybrid : Bool) (coins : Coins) : ConnectPhase × List CallEvent :=
  let session := c.newSession hybrid coins
  let next := c.continueWith hybrid session (session.returns P)
  (next.1, .started hybrid :: next.2)

/-- What a call does next: the pins, its phase and what it has done. -/
def step (store : PinStore) (a : CallAction) :
    Option (PinStore × ConnectPhase × List CallEvent) :=
  match c.phase, a with
  | .connecting _, .tcp (.error e) => some (store, .returned (.error (.io e)), [])
  | .connecting hybrid, .tcp (.ok coins) => some (store, c.startHandshake P hybrid coins)
  | .handshaking hybrid session, .network e =>
    some (store, c.continueWith hybrid (session.onEvent P e).1 (session.onEvent P e).2)
  | .completed session channel, .remember =>
    match c.host P with
    | some host =>
      some (store.remember host, .inserted session channel (store.pins.remember host).2,
        [.inserted host])
    | none => none
  | .inserted _ channel spawn, .returnFromRemember =>
    match c.host P with
    | some host =>
      (if spawn then store.step (.spawn host) else some store).map fun store =>
        (store, .returned (.ok (true, channel)), [.remembered host, .returned true])
    | none => none
  | .closed, .check =>
    match (c.host P).bind store.pins.refusesDowngrade with
    | some reason =>
      some (store, .returned (.error (.sdk (.crypto reason))), [.refused reason])
    | none => some (store, .connecting false, [])
  | _, _ => none

end KeyCall

/-! ## All calls -/

inductive ConnectEvent where
  | began (i : Nat) (pinned : Option (FixedBytes 32))
  | call (i : Nat) (e : CallEvent)
  /-- `use_store` has loaded these hosts. -/
  | loaded (hosts : HostSet)
  /-- `use_store` could not read the store. -/
  | unreadable

structure KeyConnects where
  store : PinStore
  calls : List KeyCall := []
  log : List ConnectEvent := []

inductive ConnectAction where
  /-- A call of `connect_key`. -/
  | connectKey (identity : FixedBytes 32) (pinned : Option (FixedBytes 32))
  /-- A call of `connect_key_over`. -/
  | connectKeyOver (identity pinned : FixedBytes 32) (coins : Coins)
  | call (i : Nat) (a : CallAction)
  | useStore (path : PathBuf) (fault : Option IoError)
  /-- A save that was spawned does its next step. -/
  | lock
  | read
  | write (fault : Option SaveFault)

namespace KeyConnects

variable (P : Suite)

/-- A call begins. -/
def begin (s : KeyConnects) (c : KeyCall) (events : List CallEvent) : KeyConnects :=
  { s with
    calls := s.calls ++ [c]
    log := s.log ++ .began s.calls.length c.pinned :: events.map (.call s.calls.length) }

def step (s : KeyConnects) : ConnectAction → Option KeyConnects
  | .connectKey identity pinned => some (s.begin ⟨false, identity, pinned, .connecting true⟩ [])
  | .connectKeyOver identity pinned coins =>
    let c : KeyCall := ⟨true, identity, some pinned, .connecting true⟩
    let next := c.startHandshake P true coins
    some (s.begin { c with phase := next.1 } next.2)
  | .call i a => do
      let c ← s.calls[i]?
      let (store, phase, events) ← c.step P s.store a
      some { s with
        store := store
        calls := s.calls.set i { c with phase := phase }
        log := s.log ++ events.map (.call i) }
  | .useStore path fault =>
    let opened := PqPins.useStore s.store.files path fault s.store.pins
    let event := match load s.store.files path fault with
      | .ok hosts => .loaded hosts
      | .error _ => .unreadable
    some { s with store := { s.store with pins := opened.1 }, log := s.log ++ [event] }
  | .lock => saves .lock
  | .read => saves .read
  | .write fault => saves (.write fault)
where
  saves (a : PinAction) : Option KeyConnects :=
    (s.store.step a).map fun store => { s with store := store }

def start (files : Files) : KeyConnects := { store := .start {} files }

end KeyConnects

end RivetLink.Sdk
