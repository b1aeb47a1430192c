import RivetLink.Crypto.Handshake
import RivetLink.Sdk.DirectTranscripts

/-!
# The direct handshake

The four sides of the direct handshake, each cut at the points where it waits for a message:
`clientKeyHello` and `clientKeyReply` for `client_connect_key`, `hostKeyAnswer` and `HostKex.agree`
for `host_key_continue`, and their PIN-mode counterparts. What lies between two waits is one
function that returns the local variables the rest needs. All four end in an `Agreement`: the terms
that go into the transcript, the secrets, and the channel; then the confirmation tokens are
exchanged (`sealToken`, `openToken`).

`Session.agreement` and `Session.result` put the pieces together for the five functions of `Config`.
They take what `read_msg` has returned so far and give `none` while the function is still waiting.
Randomness is drawn beforehand (`Coins`). A failing
write is not modelled: it ends the function with an error and nothing else, which for everything
proved here is no different from never being answered.
-/

namespace RivetLink.Sdk

open RivetLink.Foundation RivetLink.Crypto

structure Suite where
  kdf : Kdf
  aead : Aead
  signature : SignatureScheme
  dh : KeyAgreement
  kem : Kem
  pake : Pake
  b64 : Base64

/-- What one run of the handshake draws: the ephemeral secret, the seed of its ML-KEM key, the
coins of its encapsulation and those of its PAKE message. -/
structure Coins where
  ephemeral : FixedBytes 32
  kemSeed : FixedBytes 32
  kemCoins : FixedBytes 32
  pake : FixedBytes 32

inductive Wire where
  | pake (v : UInt16) (msg : Str) (pq : Option Str)
  | kex (v : UInt16) (fields : KexFields)
  | confirm (token : Str)
  | reject (reason : String)
  deriving DecidableEq

def confirmToken : Bytes := literal "rivetlink-direct-confirm-v1"

inductive Terms where
  | kex (version : UInt16) (client host : KexFields)
  | pake (version : UInt16) (clientMessage hostMessage : Buffer) (clientPq hostPq : Option Str)
  deriving DecidableEq

def Terms.transcript : Terms → Bytes
  | .kex version client host => kexTranscript version client host
  | .pake version clientMessage hostMessage clientPq hostPq =>
    pakeTranscript version clientMessage hostMessage clientPq hostPq

/-- The identity that a host returns with the channel. -/
def Terms.clientId : Terms → Option Str
  | .kex _ client _ => some client.id
  | .pake _ _ _ _ _ => none

/-- Where the classical secret comes from: a Diffie-Hellman exchange with the peer's ephemeral key,
or a PAKE under a password. -/
inductive SecretSource where
  | ephemeral (peer : FixedBytes 32)
  | password (password : Bytes)
  deriving DecidableEq

structure Agreement where
  role : ChannelRole
  terms : Terms
  source : SecretSource
  pqSecret : Option (FixedBytes 32)
  classical : FixedBytes 32
  channel : SealedChannel
  deriving DecidableEq

def Agreement.ikm (a : Agreement) : Bytes := inputKey a.pqSecret a.classical

section Handshake

variable (P : Suite)

/-- Report a cryptographic error as an error of the SDK. -/
def liftCrypto {α : Type} (context : String) : CryptoResult α → SdkResult α
  | .ok a => .ok a
  | .error e => .error (.crypto (context ++ e.text))

def okOr {α : Type} (value : Option α) (e : SdkError) : SdkResult α :=
  match value with
  | some a => .ok a
  | none => .error e

def publicKeyB64 (identity : FixedBytes 32) : Str :=
  P.b64.encode (P.signature.verifyingKey identity).bytes

def parseIdentity (b64 : Str) : SdkResult (FixedBytes 32) := do
  let key ← decodeN P.b64 32 b64
  match P.signature.parseKey key with
  | .ok _ => .ok key
  | .error e => .error (.crypto ("bad identity key: " ++ e))

structure ClientPq where
  seed : FixedBytes 32
  encapsulationKey : Str

def ClientPq.start (hybrid : Bool) (seed : FixedBytes 32) : Option ClientPq :=
  if hybrid then some ⟨seed, P.b64.encode (P.kem.encapsulationKey seed)⟩ else none

def ClientPq.version (pq : Option ClientPq) : UInt16 :=
  if pq.isSome then hybridVersion else classicVersion

/-- Check that the host answered in the version asked for, then decapsulate its ciphertext. -/
def ClientPq.finish (pq : Option ClientPq) (version : UInt16) (ciphertext : Option Str) :
    SdkResult (Option (FixedBytes 32)) := do
  -- an answer without a ciphertext in version 3, or with one in version 2, fails here
  requireVersion version ciphertext
  match pq, ciphertext with
  | none, none => .ok none
  | some pq, some ciphertext => do
      let raw ← decode P.b64 ciphertext
      match P.kem.decapsulate pq.seed raw.bytes with
      | some secret => .ok (some secret)
      | none => .error (.crypto CryptoError.pqDecapsulation.text)
  -- the host answered in the other version, which a stripped ML-KEM field looks like
  | _, _ => .error (.crypto "host answered in another protocol version")

/-- Encapsulate to the client's key: the encoded ciphertext and the secret. -/
def hostPq (encapsulationKey : Option Str) (coins : FixedBytes 32) :
    SdkResult (Option (Str × FixedBytes 32)) :=
  match encapsulationKey with
  | none => .ok none
  | some key => do
      let raw ← decode P.b64 key
      match P.kem.encapsulate raw.bytes coins with
      | some (ciphertext, secret) => .ok (some (P.b64.encode ciphertext, secret))
      | none => .error (.crypto CryptoError.pqEncapsulation.text)

/-! ## Confirmation -/

def sealToken (ch : SealedChannel) : SdkResult (Wire × SealedChannel) :=
  match ch.seal P.aead confirmToken with
  | (.ok frame, ch') => .ok (.confirm (P.b64.encode frame), ch')
  | (.error e, _) => .error (.crypto e.text)

def openToken (ch : SealedChannel) (msg : Wire) : SdkResult SealedChannel :=
  match msg with
  | .confirm token => do
      let raw ← decode P.b64 token
      match ch.open P.aead raw.bytes with
      | (.ok opened, ch') =>
        if opened = confirmToken then .ok ch' else .error (.crypto "authentication failed")
      | (.error _, _) => .error (.crypto "authentication failed")
  | _ => .error (.crypto "expected confirmation")

/-! ## Key mode -/

/-- The client's variables while it waits for the host's key exchange. -/
structure ClientKex where
  pinnedHost : FixedBytes 32
  pq : Option ClientPq
  version : UInt16
  kex : LocalKeyExchange
  client : KexFields

/-- `client_connect_key` up to its first wait; it sends `Wire.kex version client`. -/
def clientKeyHello (identity : FixedBytes 32) (pinnedHost : Option (FixedBytes 32)) (hybrid : Bool)
    (coins : Coins) : SdkResult ClientKex := do
  let clientId := publicKeyB64 P identity
  let pinned ← okOr pinnedHost
    (.crypto "host identity is not pinned; complete explicit pairing before connecting")
  let pq := ClientPq.start P hybrid coins.kemSeed
  let version := ClientPq.version pq
  let clientPq := pq.map (·.encapsulationKey)
  let binding ← clientKexBinding P.b64 version clientId clientPq
  let kex := start P.signature P.dh identity binding coins.ephemeral
  .ok { pinnedHost := pinned, pq := pq, version := version, kex := kex,
        client := { eph := P.b64.encode kex.ephemeralPublic.bytes, id := clientId,
                    sig := P.b64.encode kex.signature.bytes, pq := clientPq } }

/-- The host's answer to a key-mode hello. -/
def readHostKex : Wire → SdkResult (UInt16 × KexFields)
  | .kex v fields => .ok (v, fields)
  | .reject reason => .error (.crypto ("host rejected connection: " ++ reason))
  | _ => .error (.crypto "expected key exchange")

/-- `client_connect_key` between its two waits, up to the derived channel. -/
def clientKeyReply (st : ClientKex) (msg : Wire) : SdkResult Agreement := do
  let (v, host) ← readHostKex msg
  requireVersion v host.pq
  let hostId ← parseIdentity P host.id
  -- the pinned key decides before the host's signature is looked at
  if st.pinnedHost ≠ hostId then .error (.crypto "host identity mismatch")
  else do
    let hostEph ← decodeN P.b64 32 host.eph
    let sig ← decodeN P.b64 64 host.sig
    -- the host signs a hash of what this client sent, so an answer to another client fails
    let binding ← hostKexBinding P.b64 v host.id (clientFieldsHash P.kdf.sha256 st.client) host.pq
    liftCrypto "host key exchange invalid: " (verifyPeer P.signature hostId hostEph sig binding)
    let pqSecret ← ClientPq.finish P st.pq v host.pq
    -- version and client fields are the client's own, not what the host echoes
    let channel ← liftCrypto "" (st.kex.intoChannel P.kdf P.dh hostEph pqSecret
      (kexTranscript st.version st.client host) .initiator)
    .ok { role := .initiator, terms := .kex st.version st.client host, source := .ephemeral hostEph,
          pqSecret := pqSecret, classical := P.dh.diffieHellman st.kex.secret hostEph,
          channel := channel }

/-- The host's variables once it has answered a client. -/
structure HostKex where
  version : UInt16
  client : KexFields
  clientEph : FixedBytes 32
  pq : Option (Str × FixedBytes 32)
  kex : LocalKeyExchange
  host : KexFields

/-- `host_key_continue` up to its answer `Wire.kex version host`. A client that is not trusted is
sent `Wire.reject "connection rejected"`. -/
def hostKeyAnswer (identity : FixedBytes 32) (trust : Str → Bool) (version : UInt16)
    (client : KexFields) (coins : Coins) : SdkResult HostKex := do
  let clientId ← parseIdentity P client.id
  let clientEph ← decodeN P.b64 32 client.eph
  let sig ← decodeN P.b64 64 client.sig
  let clientBinding ← clientKexBinding P.b64 version client.id client.pq
  liftCrypto "client key exchange invalid: "
    (verifyPeer P.signature clientId clientEph sig clientBinding)
  -- the identity is proved at this point; whether to trust it is up to the caller
  if trust client.id = false then .error (.crypto "client not trusted")
  else do
    let pq ← hostPq P client.pq coins.kemCoins
    let hostCiphertext := pq.map (·.1)
    let hostId := publicKeyB64 P identity
    let binding ← hostKexBinding P.b64 version hostId (clientFieldsHash P.kdf.sha256 client)
      hostCiphertext
    let kex := start P.signature P.dh identity binding coins.ephemeral
    .ok { version := version, client := client, clientEph := clientEph, pq := pq, kex := kex,
          host := { eph := P.b64.encode kex.ephemeralPublic.bytes, id := hostId,
                    sig := P.b64.encode kex.signature.bytes, pq := hostCiphertext } }

def HostKex.agree (hk : HostKex) : SdkResult Agreement := do
  let channel ← liftCrypto "" (hk.kex.intoChannel P.kdf P.dh hk.clientEph (hk.pq.map (·.2))
    (kexTranscript hk.version hk.client hk.host) .responder)
  .ok { role := .responder, terms := .kex hk.version hk.client hk.host,
        source := .ephemeral hk.clientEph, pqSecret := hk.pq.map (·.2),
        classical := P.dh.diffieHellman hk.kex.secret hk.clientEph, channel := channel }

/-! ## PIN mode -/

/-- The client's variables while it waits for the host's PAKE message. -/
structure ClientPake where
  pq : Option ClientPq
  version : UInt16
  handshake : PakeHandshake
  message : Buffer

/-- `client_connect_password` up to its first wait; it sends its message, encoded, and its
encapsulation key. -/
def clientPasswordHello (password : Str) (hybrid : Bool) (coins : Coins) : ClientPake :=
  let pq := ClientPq.start P hybrid coins.kemSeed
  { pq := pq, version := ClientPq.version pq,
    handshake := ⟨password.asBytes.bytes, coins.pake⟩,
    message := P.pake.message password.asBytes.bytes coins.pake }

def ClientPake.wire (st : ClientPake) : Wire :=
  .pake st.version (P.b64.encode st.message.bytes) (st.pq.map (·.encapsulationKey))

/-- `client_connect_password` between its two waits, up to the derived channel. -/
def clientPasswordReply (st : ClientPake) (msg : Wire) : SdkResult Agreement :=
  match msg with
  | .pake v msg hostCiphertext => do
      let pqSecret ← ClientPq.finish P st.pq v hostCiphertext
      let peerMessage ← decode P.b64 msg
      let clientPq := st.pq.map (·.encapsulationKey)
      let secret ← liftCrypto "" (st.handshake.secret P.pake peerMessage.bytes)
      -- both messages and both ML-KEM values go into the transcript
      let channel ← liftCrypto "" (st.handshake.finish P.kdf P.pake peerMessage.bytes pqSecret
        (pakeTranscript st.version st.message peerMessage clientPq hostCiphertext) .initiator)
      .ok { role := .initiator,
            terms := .pake st.version st.message peerMessage clientPq hostCiphertext,
            source := .password st.handshake.password, pqSecret := pqSecret, classical := secret,
            channel := channel }
  | _ => .error (.crypto "expected pake message")

/-- The host's variables once it has answered a client. -/
structure HostPake where
  version : UInt16
  peerMsg : Buffer
  clientPq : Option Str
  pq : Option (Str × FixedBytes 32)
  handshake : PakeHandshake
  message : Buffer

/-- `host_password_continue` up to its answer. -/
def hostPasswordAnswer (password : Str) (version : UInt16) (peerMsgB64 : Str)
    (clientPq : Option Str) (coins : Coins) : SdkResult HostPake := do
  let peerMsg ← decode P.b64 peerMsgB64
  let pq ← hostPq P clientPq coins.kemCoins
  .ok { version := version, peerMsg := peerMsg, clientPq := clientPq, pq := pq,
        handshake := ⟨password.asBytes.bytes, coins.pake⟩,
        message := P.pake.message password.asBytes.bytes coins.pake }

def HostPake.wire (hp : HostPake) : Wire :=
  .pake hp.version (P.b64.encode hp.message.bytes) (hp.pq.map (·.1))

def HostPake.agree (hp : HostPake) : SdkResult Agreement := do
  let secret ← liftCrypto "" (hp.handshake.secret P.pake hp.peerMsg.bytes)
  let channel ← liftCrypto "" (hp.handshake.finish P.kdf P.pake hp.peerMsg.bytes
    (hp.pq.map (·.2))
    (pakeTranscript hp.version hp.peerMsg hp.message hp.clientPq (hp.pq.map (·.1))) .responder)
  .ok { role := .responder,
        terms := .pake hp.version hp.peerMsg hp.message hp.clientPq (hp.pq.map (·.1)),
        source := .password hp.handshake.password, pqSecret := hp.pq.map (·.2),
        classical := secret, channel := channel }

/-! ## The whole functions -/

/-- What `read_msg` has returned so far, in order. The bytes are the attacker's, so any message and
any error may stand here. -/
abbrev Inbox := List (SdkResult Wire)

/-- Once the host has answered, a closed connection is reported as a handshake failure. -/
def closedAfterReply : SdkError → SdkError
  | .io e => .crypto ("host closed the handshake: " ++ e)
  | other => other

/-- Wait for the first message and go on with it. -/
def afterFirst {α : Type} (inbox : Inbox) (k : Wire → SdkResult α) : Option (SdkResult α) :=
  match inbox with
  | [] => none
  | .error e :: _ => some (.error e)
  | .ok msg :: _ => some (k msg)

/-- The client confirms first, then verifies the host's confirmation. -/
def clientFinish (agreed : Option (SdkResult Agreement)) (inbox : Inbox) :
    Option (SdkResult SealedChannel) :=
  agreed.bind fun
    | .error e => some (.error e)
    | .ok a =>
      match sealToken P a.channel with
      | .error e => some (.error e)
      | .ok (_, ch) =>
        -- the first message was the host's answer
        match inbox.drop 1 with
        | [] => none
        | .error e :: _ => some (.error (closedAfterReply e))
        | .ok msg :: _ => some (openToken P ch msg)

/-- The host verifies the client's confirmation first, then confirms. It returns the channel and, in
key mode, the client's identity. -/
def hostFinish (agreed : Option (SdkResult Agreement)) (inbox : Inbox) :
    Option (SdkResult (SealedChannel × Option Str)) :=
  agreed.bind fun
    | .error e => some (.error e)
    | .ok a =>
      match inbox.drop 1 with
      | [] => none
      | .error e :: _ => some (.error e)
      | .ok msg :: _ => some do
          let ch ← openToken P a.channel msg
          let (_, ch) ← sealToken P ch
          .ok (ch, a.terms.clientId)

def clientKeyAgreement (identity : FixedBytes 32) (pinnedHost : Option (FixedBytes 32))
    (hybrid : Bool) (coins : Coins) (inbox : Inbox) : Option (SdkResult Agreement) :=
  match clientKeyHello P identity pinnedHost hybrid coins with
  | .error e => some (.error e)
  | .ok st => afterFirst inbox (clientKeyReply P st)

def clientPasswordAgreement (password : Str) (hybrid : Bool) (coins : Coins) (inbox : Inbox) :
    Option (SdkResult Agreement) :=
  afterFirst inbox (clientPasswordReply P (clientPasswordHello P password hybrid coins))

/-- `host_key_continue` up to the derived channel, after the version check. -/
def hostKeyContinue (identity : FixedBytes 32) (trust : Str → Bool) (coins : Coins) (v : UInt16)
    (client : KexFields) : SdkResult Agreement := do
  requireVersion v client.pq
  let hk ← hostKeyAnswer P identity trust v client coins
  hk.agree P

/-- `host_password_continue` up to the derived channel, after the version check. -/
def hostPasswordContinue (password : Str) (coins : Coins) (v : UInt16) (msg : Str)
    (pq : Option Str) : SdkResult Agreement := do
  requireVersion v pq
  let hp ← hostPasswordAnswer P password v msg pq coins
  hp.agree P

def hostKeyAgreement (identity : FixedBytes 32) (trust : Str → Bool) (coins : Coins)
    (inbox : Inbox) : Option (SdkResult Agreement) :=
  afterFirst inbox fun
    | .kex v client => hostKeyContinue P identity trust coins v client
    | _ => .error (.crypto "expected key exchange")

def hostPasswordAgreement (password : Str) (coins : Coins) (inbox : Inbox) :
    Option (SdkResult Agreement) :=
  afterFirst inbox fun
    | .pake v msg pq => hostPasswordContinue P password coins v msg pq
    | _ => .error (.crypto "expected pake message")

def hostAutoAgreement (identity : FixedBytes 32) (password : Str) (trust : Str → Bool)
    (coins : Coins) (inbox : Inbox) : Option (SdkResult Agreement) :=
  afterFirst inbox fun
    | .pake v msg pq => hostPasswordContinue P password coins v msg pq
    -- the first message selects the mode
    | .kex v client => hostKeyContinue P identity trust coins v client
    | .confirm _ => .error (.crypto "unexpected confirmation as first message")
    | .reject _ => .error (.crypto "unexpected rejection as first message")

/-- One side of one handshake: which function it runs and with which arguments. -/
inductive Config where
  | clientKey (identity : FixedBytes 32) (pinnedHost : Option (FixedBytes 32)) (hybrid : Bool)
  | clientPassword (password : Str) (hybrid : Bool)
  | hostKey (identity : FixedBytes 32) (trust : Str → Bool)
  | hostPassword (password : Str)
  | hostAuto (identity : FixedBytes 32) (password : Str) (trust : Str → Bool)

/-- A run of one side: its function, its coins and what it has received so far. -/
structure Session where
  config : Config
  coins : Coins
  inbox : Inbox

/-- The derived channel of a run, or the error before it; `none` while waiting. -/
def Session.agreement (s : Session) : Option (SdkResult Agreement) :=
  match s.config with
  | .clientKey identity pinnedHost hybrid =>
    clientKeyAgreement P identity pinnedHost hybrid s.coins s.inbox
  | .clientPassword password hybrid => clientPasswordAgreement P password hybrid s.coins s.inbox
  | .hostKey identity trust => hostKeyAgreement P identity trust s.coins s.inbox
  | .hostPassword password => hostPasswordAgreement P password s.coins s.inbox
  | .hostAuto identity password trust =>
    hostAutoAgreement P identity password trust s.coins s.inbox

/-- What the function of a run has returned; `none` while waiting. The client functions return the
channel alone. -/
def Session.result (s : Session) : Option (SdkResult (SealedChannel × Option Str)) :=
  match s.config with
  | .clientKey _ _ _ => (clientFinish P (s.agreement P) s.inbox).map (Except.map (·, none))
  | .clientPassword _ _ => (clientFinish P (s.agreement P) s.inbox).map (Except.map (·, none))
  | .hostKey _ _ => hostFinish P (s.agreement P) s.inbox
  | .hostPassword _ => hostFinish P (s.agreement P) s.inbox
  | .hostAuto _ _ _ => hostFinish P (s.agreement P) s.inbox

end Handshake

end RivetLink.Sdk
