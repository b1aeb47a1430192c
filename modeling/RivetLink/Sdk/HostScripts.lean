import RivetLink.Foundation.Effects
import RivetLink.Sdk.KeyConnect
import RivetLink.Sdk.SealedFrames

/-!
# What a host can make of a handshake

The client side of the direct handshake over the bytes of a connection. A `HostScript` is all that a
client sees of its host: the bytes that arrive, cut anywhere, the failure that reads meet after the
last of them, and the outcomes of its own writes. It counts the frames that were read completely.

Before the first frame an I/O error is returned as it is, and some kinds of it look like the close
of a host that does not know version 3. `old_host_close_before_reply` says that after a complete
frame no error looks like that, whatever the frame holds and however the connection ends.
-/

namespace RivetLink.Sdk

open RivetLink.Foundation RivetLink.Crypto

/-- The connection to a host, as the client's reads and writes see it. -/
structure HostScript where
  pieces : List Bytes
  /-- What a read gets when the bytes are used up: the end of the stream or a reset. -/
  ending : IoFailure
  /-- How the next writes end; those after them succeed. -/
  writes : List (Option IoFailure)
  /-- The frames that were read completely. -/
  received : List Bytes := []

abbrev Connecting := EStateM ConnectError HostScript

def ConnectError.isIo : ConnectError → Bool
  | .io _ => true
  | .sdk (.io _) => true
  | .sdk _ => false

theorem isIo_of_isOldHostClose {e : ConnectError} (h : isOldHostClose e = true) :
    e.isIo = true := by
  cases e with
  | io e => rfl
  | sdk e => cases h

namespace HostScript

def closedAfterReply : ConnectError → ConnectError
  | .io e => .sdk (Sdk.closedAfterReply (.io e.text))
  | .sdk e => .sdk (Sdk.closedAfterReply e)

theorem isIo_closedAfterReply (e : ConnectError) : (closedAfterReply e).isIo = false := by
  cases e with
  | io e => rfl
  | sdk e => cases e <;> rfl

/-- A result of a computation that does not touch the connection. -/
def sdk {α : Type} (x : SdkResult α) : Connecting α := liftExcept .sdk x

/-- The bytes of a message are written. -/
def transmit : Connecting Unit := fun c =>
  match c.writes with
  | [] => .ok () c
  | none :: writes => .ok () { c with writes := writes }
  | some e :: writes => .error (.io e) { c with writes := writes }

def write (msg : Wire) : Connecting Unit := do
  let _ ← sdk (writeMsg msg)
  transmit

section Client

variable (P : Suite) (jsonError : Bytes → String)

def read : Connecting Wire := fun c =>
  match readFrame maxFrame c.pieces with
  -- the stream ends inside the length or inside the payload
  | .error .eof => .error (.io c.ending) c
  | .error .tooLarge => .error (.sdk (.crypto "handshake frame too large")) c
  | .ok (buf, pieces) =>
    let c := { c with pieces := pieces, received := c.received ++ [buf] }
    match Wire.json.fromSlice buf with
    | none => .error (.sdk (.serde (jsonError buf))) c
    | some msg => .ok msg c

/-- The client confirms first, then verifies the host's confirmation. -/
def confirm (a : Agreement) : Connecting SealedChannel := do
  let (token, ch) ← sdk (sealToken P a.channel)
  EStateM.adaptExcept closedAfterReply (write token)
  let msg ← EStateM.adaptExcept closedAfterReply (read jsonError)
  sdk (openToken P ch msg)

def clientConnectPassword (password : Str) (hybrid : Bool) (coins : Coins) :
    Connecting SealedChannel := do
  let st := clientPasswordHello P password hybrid coins
  write (st.wire P)
  let msg ← read jsonError
  let a ← sdk (clientPasswordReply P st msg)
  confirm P jsonError a

def clientConnectKey (identity : FixedBytes 32) (pinnedHost : Option (FixedBytes 32))
    (hybrid : Bool) (coins : Coins) : Connecting SealedChannel := do
  let st ← sdk (clientKeyHello P identity pinnedHost hybrid coins)
  write (.kex st.version st.client)
  let msg ← read jsonError
  let a ← sdk (clientKeyReply P st msg)
  confirm P jsonError a

end Client

/-! ## Errors of the steps between reads and writes -/

/-- No error comes from the connection. -/
abbrev NoIo {α : Type} (x : SdkResult α) : Prop :=
  ErrorsIn (fun e => (ConnectError.sdk e).isIo = false) x

section Steps

variable {P : Suite}

theorem noIo_decode (B : Base64) (b64 : Str) : NoIo (decode B b64) := by
  unfold decode
  split
  · exact errorsIn_ok
  · exact errorsIn_error rfl

theorem noIo_decodeN (B : Base64) (n : Nat) (b64 : Str) : NoIo (decodeN B n b64) := by
  unfold decodeN
  split
  · split
    · exact errorsIn_ok
    · exact errorsIn_error rfl
  · rename_i e he
    exact errorsIn_error (noIo_decode B b64 e he)

theorem noIo_requireVersion (version : UInt16) (pq : Option Str) :
    NoIo (requireVersion version pq) := by
  unfold requireVersion
  split
  · exact errorsIn_ok
  · exact errorsIn_error rfl

theorem noIo_clientKexBinding (B : Base64) (version : UInt16) (id : Str) (pq : Option Str) :
    NoIo (clientKexBinding B version id pq) := by
  unfold clientKexBinding
  split
  · exact errorsIn_ok
  · rename_i e he
    exact errorsIn_error (noIo_decodeN B 32 id e he)

theorem noIo_hostKexBinding (B : Base64) (version : UInt16) (id : Str) (hash : FixedBytes 32)
    (pq : Option Str) : NoIo (hostKexBinding B version id hash pq) := by
  unfold hostKexBinding
  split
  · exact errorsIn_ok
  · rename_i e he
    exact errorsIn_error (noIo_decodeN B 32 id e he)

theorem noIo_liftCrypto {α : Type} (context : String) (x : CryptoResult α) :
    NoIo (liftCrypto context x) := by
  cases x with
  | ok a => exact errorsIn_ok
  | error e => exact errorsIn_error rfl

theorem noIo_parseIdentity (b64 : Str) : NoIo (parseIdentity P b64) := by
  apply (noIo_decodeN P.b64 32 b64).bind
  intro key
  split
  · exact errorsIn_ok
  · exact errorsIn_error rfl

theorem noIo_finish (pq : Option ClientPq) (version : UInt16) (ciphertext : Option Str) :
    NoIo (ClientPq.finish P pq version ciphertext) := by
  apply (noIo_requireVersion version ciphertext).bind
  intro _
  split
  · exact errorsIn_ok
  · apply (noIo_decode P.b64 _).bind
    intro raw
    split
    · exact errorsIn_ok
    · exact errorsIn_error rfl
  · exact errorsIn_error rfl

theorem noIo_sealToken (ch : SealedChannel) : NoIo (sealToken P ch) := by
  unfold sealToken
  split
  · exact errorsIn_ok
  · exact errorsIn_error rfl

theorem noIo_openToken (ch : SealedChannel) (msg : Wire) : NoIo (openToken P ch msg) := by
  unfold openToken
  split
  · apply (noIo_decode P.b64 _).bind
    intro raw
    split
    · split
      · exact errorsIn_ok
      · exact errorsIn_error rfl
    · exact errorsIn_error rfl
  · exact errorsIn_error rfl

theorem noIo_writeMsg (msg : Wire) : NoIo (writeMsg msg) := by
  unfold writeMsg
  split
  · exact errorsIn_ok
  · exact errorsIn_error rfl

theorem noIo_clientKeyHello (identity : FixedBytes 32) (pinnedHost : Option (FixedBytes 32))
    (hybrid : Bool) (coins : Coins) : NoIo (clientKeyHello P identity pinnedHost hybrid coins) := by
  have hpinned : NoIo (okOr pinnedHost (.crypto
      "host identity is not pinned; complete explicit pairing before connecting")) := by
    cases pinnedHost with
    | none => exact errorsIn_error rfl
    | some key => exact errorsIn_ok
  apply hpinned.bind
  intro pinned
  apply (noIo_clientKexBinding P.b64 _ _ _).bind
  intro binding
  exact errorsIn_ok

theorem noIo_readHostKex (msg : Wire) : NoIo (readHostKex msg) := by
  unfold readHostKex
  split
  · exact errorsIn_ok
  · exact errorsIn_error rfl
  · exact errorsIn_error rfl

theorem noIo_clientKeyReply (st : ClientKex) (msg : Wire) : NoIo (clientKeyReply P st msg) := by
  apply (noIo_readHostKex msg).bind
  rintro ⟨v, host⟩
  apply (noIo_requireVersion v host.pq).bind
  intro _
  apply (noIo_parseIdentity host.id).bind
  intro hostId
  split
  · exact errorsIn_error rfl
  · apply (noIo_decodeN P.b64 32 host.eph).bind
    intro hostEph
    apply (noIo_decodeN P.b64 64 host.sig).bind
    intro sig
    apply (noIo_hostKexBinding P.b64 v host.id _ host.pq).bind
    intro binding
    apply (noIo_liftCrypto _ _).bind
    intro _
    apply (noIo_finish st.pq v host.pq).bind
    intro pqSecret
    apply (noIo_liftCrypto _ _).bind
    intro channel
    exact errorsIn_ok

theorem noIo_clientPasswordReply (st : ClientPake) (msg : Wire) :
    NoIo (clientPasswordReply P st msg) := by
  unfold clientPasswordReply
  split
  · apply (noIo_finish st.pq _ _).bind
    intro pqSecret
    apply (noIo_decode P.b64 _).bind
    intro peerMessage
    apply (noIo_liftCrypto _ _).bind
    intro secret
    apply (noIo_liftCrypto _ _).bind
    intro channel
    exact errorsIn_ok
  · exact errorsIn_error rfl

end Steps

/-! ## Errors of the handshake -/

section Errors

variable {P : Suite} {jsonError : Bytes → String} {c₀ c : HostScript} {msg : Wire}
  {e : ConnectError}

/-- An error of the connection is met before the first frame: the hello could not be written, or
the bytes end inside the first frame. -/
def Silent (c₀ : HostScript) (e : ConnectError) (c : HostScript) : Prop :=
  e.isIo = true → c.received = [] ∧
    ((∃ failure, c₀.writes.head? = some (some failure)) ∨
      readFrame maxFrame c₀.pieces = .error .eof)

theorem silent_of_noIo (h : e.isIo = false) : Silent c₀ e c := by
  intro hio
  rw [h] at hio
  cases hio

theorem yields_sdk {α : Type} {x : SdkResult α} {I : HostScript → Prop} (hx : NoIo x) :
    Yields I (sdk x) (fun _ c => I c) (Silent c₀) := by
  apply (yields_liftExcept hx fun e c _ he => silent_of_noIo he).mono
  · intro c hc
    exact hc
  · intro a c hc
    exact hc.2
  · intro e c he
    exact he

/-- The hello: nothing is received while it is written. -/
theorem yields_hello (hstart : c₀.received = []) :
    Yields (· = c₀) (write msg) (fun _ c => c.received = [] ∧ c.pieces = c₀.pieces)
      (Silent c₀) := by
  apply (yields_sdk (noIo_writeMsg msg)).bind
  rintro _ ⟨pieces, ending, writes, received⟩ rfl
  cases writes with
  | nil => exact And.intro hstart rfl
  | cons outcome writes =>
    cases outcome with
    | none => exact And.intro hstart rfl
    | some failure => exact fun _ => ⟨hstart, .inl ⟨failure, rfl⟩⟩

/-- The first reply: an error of the connection leaves the frame incomplete. -/
theorem yields_reply :
    Yields (fun c => c.received = [] ∧ c.pieces = c₀.pieces) (read jsonError) (fun _ _ => True)
      (Silent c₀) := by
  rintro c ⟨hreceived, hpieces⟩
  unfold read
  rw [hpieces]
  cases hframe : readFrame maxFrame c₀.pieces with
  | error fault =>
    cases fault with
    | eof => exact fun _ => ⟨hreceived, .inr hframe⟩
    | tooLarge => exact silent_of_noIo rfl
  | ok frame =>
    cases hmsg : Wire.json.fromSlice frame.1 with
    | none =>
      simp only [hmsg]
      exact silent_of_noIo rfl
    | some msg =>
      simp only [hmsg]

/-- Once the host has answered, no error comes from the connection. -/
theorem yields_confirm (a : Agreement) :
    Yields (fun _ => True) (confirm P jsonError a) (fun _ _ => True) (Silent c₀) := by
  have hclosed : ∀ {α : Type} (m : Connecting α),
      Yields (fun _ => True) (EStateM.adaptExcept closedAfterReply m) (fun _ _ => True)
        (Silent c₀) := by
    intro α m
    apply yields_adaptExcept
    intro c _
    cases m c with
    | ok a c' => trivial
    | error e c' => exact silent_of_noIo (isIo_closedAfterReply e)
  apply (yields_sdk (noIo_sealToken a.channel)).bind
  rintro ⟨token, ch⟩
  apply (hclosed (write token)).bind
  intro _
  apply (hclosed (read jsonError)).bind
  intro msg
  exact yields_sdk (noIo_openToken ch msg)

theorem yields_clientConnectPassword (hstart : c₀.received = []) (password : Str) (hybrid : Bool)
    (coins : Coins) :
    Yields (· = c₀) (clientConnectPassword P jsonError password hybrid coins) (fun _ _ => True)
      (Silent c₀) := by
  apply (yields_hello hstart).bind
  intro _
  apply yields_reply.bind
  intro msg
  apply (yields_sdk (noIo_clientPasswordReply _ msg)).bind
  intro a
  exact yields_confirm a

theorem yields_clientConnectKey (hstart : c₀.received = []) (identity : FixedBytes 32)
    (pinnedHost : Option (FixedBytes 32)) (hybrid : Bool) (coins : Coins) :
    Yields (· = c₀) (clientConnectKey P jsonError identity pinnedHost hybrid coins)
      (fun _ _ => True) (Silent c₀) := by
  apply (yields_sdk (noIo_clientKeyHello identity pinnedHost hybrid coins)).bind
  intro st
  apply (yields_hello hstart).bind
  intro _
  apply yields_reply.bind
  intro msg
  apply (yields_sdk (noIo_clientKeyReply st msg)).bind
  intro a
  exact yields_confirm a

/-- A stream that ends inside its first frame does not start with a frame. -/
theorem no_frame_of_eof {pieces : List Bytes} (h : readFrame maxFrame pieces = .error .eof)
    {payload rest : Bytes} (hlen : payload.length < 2 ^ 32) :
    pieces.flatten ≠ frameBytes payload ++ rest := by
  intro hflat
  rcases Nat.lt_or_ge maxFrame payload.length with hover | hfit
  · rw [readFrame_tooLarge hflat hlen hover] at h
    cases h
  · obtain ⟨pieces', hread, -⟩ := readFrame_frameBytes hflat hlen hfit
    rw [hread] at h
    cases h

/-- What the client saw of a host whose close looks like that of an older host: no complete frame.
Either the hello could not be written, or the bytes do not start with a frame. -/
structure NoReply (c₀ c : HostScript) : Prop where
  received : c.received = []
  bytes : (∃ failure, c₀.writes.head? = some (some failure)) ∨
    ∀ payload rest : Bytes, payload.length < 2 ^ 32 → c₀.pieces.flatten ≠ frameBytes payload ++ rest

theorem NoReply.of_silent (hsilent : Silent c₀ e c) (hclose : isOldHostClose e = true) :
    NoReply c₀ c := by
  obtain ⟨hreceived, hbytes⟩ := hsilent (isIo_of_isOldHostClose hclose)
  refine ⟨hreceived, hbytes.imp_right ?_⟩
  intro heof payload rest hlen
  exact no_frame_of_eof heof hlen

end Errors

/-- The connection before the client has read anything. -/
def opened (pieces : List Bytes) (ending : IoFailure) (writes : List (Option IoFailure)) :
    HostScript where
  pieces := pieces
  ending := ending
  writes := writes

section Main

variable (P : Suite) (jsonError : Bytes → String) (pieces : List Bytes) (ending : IoFailure)
  (writes : List (Option IoFailure)) (hybrid : Bool) (coins : Coins)

/-- For every script of a host and both modes of the handshake: an error that looks like the close
of an older host is returned only if no complete frame was received. -/
theorem old_host_close_before_reply (identity : FixedBytes 32)
    (pinnedHost : Option (FixedBytes 32)) (password : Str) :
    (∀ e c, clientConnectKey P jsonError identity pinnedHost hybrid coins
        (opened pieces ending writes) = .error e c →
      isOldHostClose e = true → NoReply (opened pieces ending writes) c) ∧
    (∀ e c, clientConnectPassword P jsonError password hybrid coins
        (opened pieces ending writes) = .error e c →
      isOldHostClose e = true → NoReply (opened pieces ending writes) c) := by
  constructor
  · intro e c h hclose
    have hsilent := (yields_clientConnectKey rfl identity pinnedHost hybrid coins).error rfl h
    exact .of_silent hsilent hclose
  · intro e c h hclose
    have hsilent := (yields_clientConnectPassword rfl password hybrid coins).error rfl h
    exact .of_silent hsilent hclose

end Main

/-- The call returned an error that looks like the close of an older host. -/
def looksOld : EStateM.Result ConnectError HostScript SealedChannel → Bool
  | .error e _ => isOldHostClose e
  | .ok _ _ => false

theorem looksOld_eq_true {r : EStateM.Result ConnectError HostScript SealedChannel}
    (h : looksOld r = true) : ∃ e c, r = .error e c ∧ isOldHostClose e = true := by
  cases r with
  | ok ch c => cases h
  | error e c => exact ⟨e, c, rfl, h⟩

/-- A host that closes the connection inside the length of its first frame. -/
def sampleClosed : HostScript := opened [[0], [0, 1]] ⟨.unexpectedEof, "early eof"⟩ []

theorem old_host_close_before_reply_sampleClosed :
    (∃ e c, clientConnectKey smallSuite (fun _ => "") sampleClientIdentity
        (some sampleHostIdentity) true (sampleCoins 1) sampleClosed = .error e c ∧
      isOldHostClose e = true ∧ NoReply sampleClosed c) ∧
    (∃ e c, clientConnectPassword smallSuite (fun _ => "") samplePin true (sampleCoins 1)
        sampleClosed = .error e c ∧ isOldHostClose e = true ∧ NoReply sampleClosed c) := by
  have hmain := old_host_close_before_reply smallSuite (fun _ => "") [[0], [0, 1]]
    ⟨.unexpectedEof, "early eof"⟩ [] true (sampleCoins 1) sampleClientIdentity
    (some sampleHostIdentity) samplePin
  constructor
  · obtain ⟨e, c, h, hclose⟩ := looksOld_eq_true
      (show looksOld (clientConnectKey smallSuite (fun _ => "") sampleClientIdentity
        (some sampleHostIdentity) true (sampleCoins 1) sampleClosed) = true by decide +kernel)
    exact ⟨e, c, h, hclose, hmain.1 e c h hclose⟩
  · obtain ⟨e, c, h, hclose⟩ := looksOld_eq_true
      (show looksOld (clientConnectPassword smallSuite (fun _ => "") samplePin true
        (sampleCoins 1) sampleClosed) = true by decide +kernel)
    exact ⟨e, c, h, hclose, hmain.2 e c h hclose⟩

end HostScript

end RivetLink.Sdk
