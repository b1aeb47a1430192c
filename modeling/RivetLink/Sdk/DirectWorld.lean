import Mathlib.Data.List.Pairwise
import Mathlib.Tactic.MkIffOfInductiveProp
import RivetLink.Crypto.SealedPair
import RivetLink.Sdk.DirectSpec
import RivetLink.Sdk.SigningContexts

/-!
# Runs of the direct handshake under an active attacker

A `World` is what any interleaving of any number of handshakes has led to: for each run of a side
its function, its coins and the messages it has received so far. The attacker owns the network, so
the messages are arbitrary; runs do not share state, so nothing else is to be said about the order
of events. Besides, identity keys sign in other contexts, and anyone may encrypt under keys of
their own.

`World.Ideal` states what the ideal primitives exclude. It speaks about the values that occur in
the world: signatures under honest keys that a run has accepted, confirmations that a run has
opened, keys that runs have derived. A channel is `Protected` if its secret comes from two
ephemeral keys of runs in the world, or from a password that the attacker does not know.

`World.Ideal.partner` is the core of the agreement results: a run that has finished over a protected
channel has a partner that derived the same channel, in the other role and from the same terms.
-/

namespace RivetLink.Sdk

open List Option RivetLink.Foundation RivetLink.Crypto

/-! ## What a run has done -/

/-- The identity key and the trust check of a host in key mode. -/
def Config.host : Config → Option (FixedBytes 32 × (Str → Bool))
  | .hostKey identity trust => some (identity, trust)
  | .hostAuto identity _ trust => some (identity, trust)
  | _ => none

/-- The password of a run that may use PIN mode. -/
def Config.password : Config → Option Str
  | .clientPassword password _ => some password
  | .hostPassword password => some password
  | .hostAuto _ password _ => some password
  | _ => none

/-- A signature that a run has checked. -/
structure Checked where
  key : FixedBytes 32
  message : Bytes
  signature : FixedBytes 64
  deriving DecidableEq

section Runs

variable (P : Suite)

/-- The agreement of a run that has derived a channel. -/
def Session.agreed? (s : Session) : Option Agreement :=
  match s.agreement P with
  | some (.ok a) => some a
  | _ => none

/-- The identity key and message of the key-exchange signature a run has made. The signature is made
before the answer is sent, so a later failure does not matter. -/
def Session.signed (s : Session) : Option (FixedBytes 32 × Bytes) :=
  match s.config with
  | .clientKey identity pinnedHost hybrid => do
      let st ← (clientKeyHello P identity pinnedHost hybrid s.coins).toOption
      let binding ← (clientKexBinding P.b64 st.version st.client.id st.client.pq).toOption
      some (P.signature.verifyingKey identity, signatureMessage binding st.kex.ephemeralPublic)
  | .clientPassword _ _ => none
  | .hostPassword _ => none
  | .hostKey identity trust => hostSigned identity trust
  | .hostAuto identity _ trust => hostSigned identity trust
where
  hostSigned (identity : FixedBytes 32) (trust : Str → Bool) : Option (FixedBytes 32 × Bytes) :=
    match s.inbox with
    | .ok (.kex v client) :: _ => do
        let _ ← (requireVersion v client.pq).toOption
        let hk ← (hostKeyAnswer P identity trust v client s.coins).toOption
        let binding ← (hostKexBinding P.b64 hk.version hk.host.id
          (clientFieldsHash P.kdf.sha256 hk.client) hk.host.pq).toOption
        some (P.signature.verifyingKey identity, signatureMessage binding hk.kex.ephemeralPublic)
    | _ => none

/-- The peer's signature that a run with a channel has checked. -/
def Session.checked (s : Session) : Option Checked := do
  let a ← s.agreed? P
  match a.role, a.terms, a.source with
  | .initiator, .kex v client host, .ephemeral eph => do
      let key ← (decodeN P.b64 32 host.id).toOption
      let sig ← (decodeN P.b64 64 host.sig).toOption
      let binding ← (hostKexBinding P.b64 v host.id (clientFieldsHash P.kdf.sha256 client)
        host.pq).toOption
      some ⟨key, signatureMessage binding eph, sig⟩
  | .responder, .kex v client _, .ephemeral eph => do
      let key ← (decodeN P.b64 32 client.id).toOption
      let sig ← (decodeN P.b64 64 client.sig).toOption
      let binding ← (clientKexBinding P.b64 v client.id client.pq).toOption
      some ⟨key, signatureMessage binding eph, sig⟩
  | _, _, _ => none

/-- The confirmation a run has received, decoded. -/
def Session.confirmation (s : Session) : Option Bytes :=
  match s.inbox with
  | _ :: .ok (.confirm token) :: _ => (decode P.b64 token).toOption.map (·.bytes)
  | _ => none

/-- The encryption of a run's own confirmation. The client makes it as soon as it has a channel, the
host once it has accepted the client's. -/
def Session.token (s : Session) : Option (Performed P.aead) := do
  let a ← s.agreed? P
  match a.role with
  | .initiator => performedBy P.aead a.channel a.channel.nextSend confirmToken
  | .responder =>
    match s.inbox with
    | _ :: .ok msg :: _ => do
        let ch ← (openToken P a.channel msg).toOption
        performedBy P.aead ch ch.nextSend confirmToken
    | _ => none

def Session.pakeMessage (s : Session) : Option Buffer :=
  s.config.password.map fun password => P.pake.message password.asBytes.bytes s.coins.pake

def Session.pakeFrame (s : Session) : Option Wire :=
  match s.config with
  | .clientPassword password hybrid =>
    some ((clientPasswordHello P password hybrid s.coins).wire P)
  | .hostPassword password => hostFrame password
  | .hostAuto _ password _ => hostFrame password
  | _ => none
where
  hostFrame (password : Str) : Option Wire :=
    match s.inbox with
    | .ok (.pake v msg pq) :: _ => do
        let _ ← (requireVersion v pq).toOption
        let hp ← (hostPasswordAnswer P password v msg pq s.coins).toOption
        some (hp.wire P)
    | _ => none

end Runs

/-! ## Worlds -/

/-- What an identity key signs outside the direct handshake. -/
inductive OtherSigning where
  | relayClient (sessionId : Uuid) (identity : Str) (eph : FixedBytes 32)
  | relayHost (sessionId : Uuid) (identity : Str) (eph : FixedBytes 32)
  | deviceChallenge (deviceId : Uuid) (nonce : FixedBytes 32)
  | lanIdentity (publicKey : FixedBytes 32)

def OtherSigning.message : OtherSigning → Bytes
  | .relayClient sessionId identity eph =>
    signatureMessage (relayKexBinding sessionId (literal "client") identity) eph
  | .relayHost sessionId identity eph =>
    signatureMessage (relayKexBinding sessionId (literal "host") identity) eph
  | .deviceChallenge deviceId nonce => deviceChallengeBinding deviceId nonce
  | .lanIdentity publicKey => identityProofMessage publicKey

/-- Runs of the handshake, signatures in other contexts with the key that made them, and encryptions
outside the handshakes. -/
structure World (P : Suite) where
  sessions : List Session
  signedElsewhere : List (FixedBytes 32 × OtherSigning)
  encryptedElsewhere : List (Performed P.aead)

namespace World

variable {P : Suite}

def agreements (w : World P) : List Agreement := w.sessions.filterMap (·.agreed? P)

def ephemerals (w : World P) : List (FixedBytes 32) :=
  w.sessions.map fun s => P.dh.publicKey s.coins.ephemeral

/-- All signatures made, with the public key they verify under. -/
def signed (w : World P) : List (FixedBytes 32 × Bytes) :=
  w.sessions.filterMap (·.signed P) ++ w.signedElsewhere.map fun e => (e.1, e.2.message)

def performed (w : World P) : List (Performed P.aead) :=
  w.sessions.filterMap (·.token P) ++ w.encryptedElsewhere

end World

/-- The secret of a channel is out of the attacker's reach: the peer's ephemeral key is that of a
run, or the password is not known. -/
def Agreement.Protected (ephemerals : List (FixedBytes 32)) (known : List Bytes) (a : Agreement) :
    Prop :=
  match a.source with
  | .ephemeral peer => peer ∈ ephemerals
  | .password password => password ∉ known

instance (ephemerals : List (FixedBytes 32)) (known : List Bytes) (a : Agreement) :
    Decidable (a.Protected ephemerals known) := by
  unfold Agreement.Protected
  split <;> infer_instance

/-- Two secrets that come from passwords come from one password. -/
def SecretSource.SamePassword : SecretSource → SecretSource → Prop
  | .password p, .password p' => p = p'
  | _, _ => True

instance (x y : SecretSource) : Decidable (x.SamePassword y) := by
  unfold SecretSource.SamePassword
  split <;> infer_instance

/-- The primitives behave ideally in a world, for identity keys in `honest`, which only the code
above uses, and an attacker who knows the passwords in `known`.

* `unforgeable` (Ed25519): a signature that verifies under an honest key was made.
* `authentic` (AEAD): a confirmation that decrypts is the output of an encryption carried out.
* `secret` (X25519, ML-KEM, SPAKE2, HKDF): nobody outside encrypts a first message under a key of a
  protected channel.
* `derivation` (HKDF): keys agree only for the same secret, transcript and label.
* `password` (SPAKE2): secrets agree only under the same password.
* `ephemerals`, `pakeMessages`: the random values of different runs differ. -/
@[mk_iff] structure World.Ideal {P : Suite} (honest : List (FixedBytes 32)) (known : List Bytes)
    (w : World P) : Prop where
  unforgeable : ∀ s ∈ w.sessions, ∀ c ∈ s.checked P, c.key ∈ honest →
    P.signature.verify c.key c.message c.signature = true → (c.key, c.message) ∈ w.signed
  authentic : ∀ s ∈ w.sessions, ∀ a ∈ s.agreed? P, ∀ raw ∈ s.confirmation P,
    P.aead.Authentic w.performed a.channel.recvKey (nonce a.channel.nextRecv) (raw.drop headerLen)
      (aad (raw.take headerLen) a.channel.bindingHash)
  secret : ∀ e ∈ w.encryptedElsewhere, e.nonce = nonce 0 → ∀ a ∈ w.agreements,
    a.Protected w.ephemerals known → e.key ≠ a.channel.recvKey
  derivation : ∀ a ∈ w.agreements, ∀ a' ∈ w.agreements, ∀ r r' : ChannelRole,
    deriveKey P.kdf a.ikm a.terms.transcript r.sendLabel =
      deriveKey P.kdf a'.ikm a'.terms.transcript r'.sendLabel →
    a.ikm = a'.ikm ∧ a.terms.transcript = a'.terms.transcript ∧ r = r'
  password : ∀ a ∈ w.agreements, ∀ a' ∈ w.agreements, a.classical = a'.classical →
    a.source.SamePassword a'.source
  ephemerals_differ : w.sessions.Pairwise fun s s' =>
    P.dh.publicKey s.coins.ephemeral ≠ P.dh.publicKey s'.coins.ephemeral
  pakeMessages_differ : w.sessions.Pairwise fun s s' =>
    ∀ m ∈ s.pakeMessage P, m ∉ s'.pakeMessage P

set_option synthInstance.maxSize 1000 in
/-- Whether a world is ideal can be checked. -/
instance {P : Suite} (honest : List (FixedBytes 32)) (known : List Bytes) (w : World P) :
    Decidable (w.Ideal honest known) :=
  decidable_of_iff' _ (World.ideal_iff honest known w)

/-! ## Facts about runs -/

section RunFacts

variable {P : Suite} {s : Session} {a : Agreement} {trust : Str → Bool}
  {identity key : FixedBytes 32} {m : Bytes} {msg : Wire} {ch : SealedChannel} {id : Option Str}

theorem toOption_eq_some {ε α : Type} {x : Except ε α} {a : α} :
    x.toOption = some a ↔ x = .ok a := by
  cases x <;> simp [Except.toOption]

/-- The four ways in which a run comes to an agreement. -/
inductive Session.Ran (P : Suite) (s : Session) (a : Agreement) : Prop where
  | clientKey (identity : FixedBytes 32) (pinnedHost : Option (FixedBytes 32)) (hybrid : Bool)
      (st : ClientKex) (msg : Wire) (rest : Inbox)
      (hconfig : s.config = .clientKey identity pinnedHost hybrid)
      (hinbox : s.inbox = .ok msg :: rest)
      (hhello : clientKeyHello P identity pinnedHost hybrid s.coins = .ok st)
      (hreply : clientKeyReply P st msg = .ok a)
  | clientPassword (password : Str) (hybrid : Bool) (msg : Wire) (rest : Inbox)
      (hconfig : s.config = .clientPassword password hybrid)
      (hinbox : s.inbox = .ok msg :: rest)
      (hreply : clientPasswordReply P (clientPasswordHello P password hybrid s.coins) msg = .ok a)
  | hostKey (identity : FixedBytes 32) (trust : Str → Bool) (v : UInt16) (client : KexFields)
      (rest : Inbox) (hconfig : s.config.host = some (identity, trust))
      (hinbox : s.inbox = .ok (.kex v client) :: rest)
      (hcontinue : hostKeyContinue P identity trust s.coins v client = .ok a)
  | hostPassword (password : Str) (v : UInt16) (text : Str) (pq : Option Str) (rest : Inbox)
      (hconfig : s.config = .hostPassword password ∨
        ∃ identity trust, s.config = .hostAuto identity password trust)
      (hinbox : s.inbox = .ok (.pake v text pq) :: rest)
      (hcontinue : hostPasswordContinue P password s.coins v text pq = .ok a)

theorem Session.agreed?_eq_some : s.agreed? P = some a ↔ s.agreement P = some (.ok a) := by
  unfold Session.agreed?
  split
  · rename_i b hb
    simp [hb]
  · rename_i hne
    simp only [reduceCtorEq, false_iff]
    exact fun h => hne a h

theorem Session.ran_of_agreed (h : s.agreed? P = some a) : s.Ran P a := by
  rw [Session.agreed?_eq_some] at h
  unfold Session.agreement at h
  cases hconfig : s.config with
  | clientKey identity pinnedHost hybrid =>
    simp only [hconfig, clientKeyAgreement] at h
    split at h
    · simp at h
    · rename_i st hhello
      obtain ⟨msg, rest, hinbox, hreply⟩ := afterFirst_eq_ok.1 h
      exact .clientKey identity pinnedHost hybrid st msg rest hconfig hinbox hhello hreply
  | clientPassword password hybrid =>
    simp only [hconfig] at h
    obtain ⟨msg, rest, hinbox, hreply⟩ := afterFirst_eq_ok.1 h
    exact .clientPassword password hybrid msg rest hconfig hinbox hreply
  | hostKey identity trust =>
    simp only [hconfig] at h
    obtain ⟨msg, rest, hinbox, hk⟩ := afterFirst_eq_ok.1 h
    cases msg with
    | kex v client =>
      exact .hostKey identity trust v client rest (by rw [hconfig]; rfl) hinbox hk
    | pake | confirm | reject => simp at hk
  | hostPassword password =>
    simp only [hconfig] at h
    obtain ⟨msg, rest, hinbox, hk⟩ := afterFirst_eq_ok.1 h
    cases msg with
    | pake v text pq => exact .hostPassword password v text pq rest (.inl hconfig) hinbox hk
    | kex | confirm | reject => simp at hk
  | hostAuto identity password trust =>
    simp only [hconfig] at h
    obtain ⟨msg, rest, hinbox, hk⟩ := afterFirst_eq_ok.1 h
    cases msg with
    | kex v client =>
      exact .hostKey identity trust v client rest (by rw [hconfig]; rfl) hinbox hk
    | pake v text pq =>
      exact .hostPassword password v text pq rest (.inr ⟨identity, trust, hconfig⟩) hinbox hk
    | confirm | reject => simp at hk

theorem Session.sound_of_agreed (h : s.agreed? P = some a) : a.Sound P := by
  cases Session.ran_of_agreed h with
  | clientKey identity pinnedHost hybrid st msg rest hconfig hinbox hhello hreply =>
    obtain ⟨-, hversion, hpq, -⟩ := clientKeyHello_spec hhello
    exact (clientKeyReply_spec hversion hpq hreply).1
  | clientPassword password hybrid msg rest hconfig hinbox hreply =>
    exact (clientPasswordReply_spec hreply).1
  | hostKey identity trust v client rest hconfig hinbox hcontinue =>
    exact (hostKeyContinue_spec hcontinue).1
  | hostPassword password v text pq rest hconfig hinbox hcontinue =>
    exact (hostPasswordContinue_spec hcontinue).1

theorem hostKeyAnswer_ephemeral {v : UInt16} {client : KexFields} {coins : Coins} {hk : HostKex}
    (h : hostKeyAnswer P identity trust v client coins = .ok hk) :
    hk.kex.ephemeralPublic = P.dh.publicKey coins.ephemeral := by
  unfold hostKeyAnswer at h
  obtain ⟨_, -, h⟩ := bind_eq_ok.1 h
  obtain ⟨_, -, h⟩ := bind_eq_ok.1 h
  obtain ⟨_, -, h⟩ := bind_eq_ok.1 h
  obtain ⟨_, -, h⟩ := bind_eq_ok.1 h
  obtain ⟨_, -, h⟩ := bind_eq_ok.1 h
  split at h
  · simp at h
  obtain ⟨_, -, h⟩ := bind_eq_ok.1 h
  obtain ⟨_, -, h⟩ := bind_eq_ok.1 h
  obtain rfl := Except.ok.inj h
  rfl

theorem Session.hostSigned_ephemeral
    (h : Session.signed.hostSigned P s identity trust = some (key, m)) :
    ∃ binding, m = signatureMessage binding (P.dh.publicKey s.coins.ephemeral) := by
  unfold Session.signed.hostSigned at h
  split at h
  · simp only [bind_eq_bind, bind_eq_some_iff, toOption_eq_some,
      some.injEq, Prod.mk.injEq] at h
    obtain ⟨_, -, hk, hanswer, binding, -, -, rfl⟩ := h
    exact ⟨binding, by rw [hostKeyAnswer_ephemeral hanswer]⟩
  · simp at h

/-- A run signs its own ephemeral key. -/
theorem Session.signed_ephemeral (h : s.signed P = some (key, m)) :
    ∃ binding, m = signatureMessage binding (P.dh.publicKey s.coins.ephemeral) := by
  unfold Session.signed at h
  split at h
  · simp only [bind_eq_bind, bind_eq_some_iff, toOption_eq_some,
      some.injEq, Prod.mk.injEq] at h
    obtain ⟨st, hhello, binding, -, -, rfl⟩ := h
    obtain ⟨-, -, -, -, -, heph, -⟩ := clientKeyHello_spec hhello
    exact ⟨binding, by rw [heph]⟩
  · simp at h
  · simp at h
  · exact Session.hostSigned_ephemeral h
  · exact Session.hostSigned_ephemeral h

theorem sealToken_eq_ok {ch' : SealedChannel} (h : sealToken P ch = .ok (msg, ch')) :
    ch' = { ch with nextSend := ch.nextSend + 1 } := by
  unfold sealToken SealedChannel.seal at h
  by_cases hmax : ch.nextSend = u64Max
  · simp [hmax] at h
  · rw [if_neg hmax] at h
    split at h
    · rename_i frame ch'' heq
      obtain ⟨-, rfl⟩ := Prod.mk.inj (Except.ok.inj h)
      exact (Prod.mk.inj heq).2.symm
    · simp at h

/-- An accepted confirmation is the sealed token under the number the channel expects. -/
theorem openToken_eq_ok {ch' : SealedChannel} (h : openToken P ch msg = .ok ch') :
    ∃ token raw ciphertext, msg = .confirm token ∧ decode P.b64 token = .ok raw ∧
      raw.bytes = (header ch.nextRecv).bytes ++ ciphertext ∧
      P.aead.decrypt ch.recvKey (nonce ch.nextRecv) ciphertext
        (aad (header ch.nextRecv).bytes ch.bindingHash) = .ok confirmToken ∧
      ch' = { ch with nextRecv := ch.nextRecv + 1 } := by
  cases msg with
  | confirm token =>
    obtain ⟨raw, hraw, h⟩ := bind_eq_ok.1 h
    split at h
    · rename_i opened ch'' hopen
      split at h
      · rename_i htoken
        obtain rfl := Except.ok.inj h
        obtain ⟨ciphertext, hbytes, -, -, hdec, rfl⟩ := SealedChannel.open_eq_ok_iff.1 hopen
        exact ⟨token, raw, ciphertext, rfl, hraw, hbytes, htoken ▸ hdec, rfl⟩
      · simp at h
    · simp at h
  | pake | kex | reject => simp [openToken] at h

/-- A run encrypts its confirmation under the sending key of its channel. -/
theorem Session.token_key {p : Performed P.aead} (h : s.token P = some p) :
    ∃ a, s.agreed? P = some a ∧ p.key = a.channel.sendKey := by
  unfold Session.token at h
  simp only [bind_eq_bind, bind_eq_some_iff] at h
  obtain ⟨a, ha, h⟩ := h
  refine ⟨a, ha, ?_⟩
  split at h
  · exact (performedBy_eq_some h).1
  · split at h
    · simp only [bind_eq_some_iff, toOption_eq_some] at h
      obtain ⟨ch, hopen, hp⟩ := h
      obtain ⟨_, _, _, -, -, -, -, rfl⟩ := openToken_eq_ok hopen
      exact (performedBy_eq_some hp).1
    · simp at h

/-- The run has received a confirmation that decrypts under the receiving key of its channel and the
first nonce. -/
def Session.Accepted (P : Suite) (s : Session) (a : Agreement) : Prop :=
  ∃ ciphertext, s.confirmation P = some ((header 0).bytes ++ ciphertext) ∧
    P.aead.decrypt a.channel.recvKey (nonce 0) ciphertext
      (aad (header 0).bytes a.channel.bindingHash) = .ok confirmToken

theorem Session.accepted_of_openToken {ch' : SealedChannel} {rest : Inbox}
    (hinbox : s.inbox.drop 1 = .ok msg :: rest) (hopen : openToken P ch msg = .ok ch')
    (hkey : ch.recvKey = a.channel.recvKey) (hhash : ch.bindingHash = a.channel.bindingHash)
    (hzero : ch.nextRecv = 0) : s.Accepted P a := by
  obtain ⟨token, raw, ciphertext, rfl, hraw, hbytes, hdec, -⟩ := openToken_eq_ok hopen
  rw [hzero] at hbytes hdec
  rw [hkey, hhash] at hdec
  refine ⟨ciphertext, ?_, hdec⟩
  match hin : s.inbox with
  | [] => simp [hin] at hinbox
  | [first] => simp [hin] at hinbox
  | first :: second :: tail =>
    simp only [hin, drop_one, tail_cons, List.cons.injEq] at hinbox
    simp [Session.confirmation, hin, hinbox.1, hraw, Except.toOption, hbytes]

theorem Session.nextRecv_of_agreed (h : s.agreed? P = some a) : a.channel.nextRecv = 0 :=
  (SealedChannel.fromHandshakeSecret_eq_ok.1 (Session.sound_of_agreed h).derived).2.2.2.2

/-- The channel that a function returns is the derived one with its counters moved. -/
def SameKeys (ch ch' : SealedChannel) : Prop :=
  ch.sendKey = ch'.sendKey ∧ ch.recvKey = ch'.recvKey ∧ ch.bindingHash = ch'.bindingHash

theorem openToken_sameKeys {ch' : SealedChannel} (h : openToken P ch msg = .ok ch') :
    SameKeys ch' ch := by
  obtain ⟨_, _, _, -, -, -, -, rfl⟩ := openToken_eq_ok h
  exact ⟨rfl, rfl, rfl⟩

theorem Session.clientFinish_eq_ok (h : clientFinish P (s.agreement P) s.inbox = some (.ok ch)) :
    ∃ a, s.agreed? P = some a ∧ s.Accepted P a ∧ SameKeys ch a.channel := by
  simp only [clientFinish, bind_eq_some_iff] at h
  obtain ⟨res, hres, h⟩ := h
  cases res with
  | error e => simp at h
  | ok a =>
    have ha := Session.agreed?_eq_some.2 hres
    refine ⟨a, ha, ?_⟩
    dsimp only at h
    split at h
    · simp at h
    rename_i msg' ch' hseal
    obtain rfl := sealToken_eq_ok hseal
    split at h
    · simp at h
    · simp at h
    · rename_i msg rest hinbox
      have hopen := some.inj h
      obtain ⟨hsend, hrecv, hhash⟩ := openToken_sameKeys hopen
      exact ⟨Session.accepted_of_openToken hinbox hopen rfl rfl (Session.nextRecv_of_agreed ha),
        hsend, hrecv, hhash⟩

theorem Session.hostFinish_eq_ok (h : hostFinish P (s.agreement P) s.inbox = some (.ok (ch, id))) :
    ∃ a, s.agreed? P = some a ∧ s.Accepted P a ∧ SameKeys ch a.channel ∧
      id = a.terms.clientId := by
  simp only [hostFinish, bind_eq_some_iff] at h
  obtain ⟨res, hres, h⟩ := h
  cases res with
  | error e => simp at h
  | ok a =>
    have ha := Session.agreed?_eq_some.2 hres
    refine ⟨a, ha, ?_⟩
    dsimp only at h
    split at h
    · simp at h
    · simp at h
    · rename_i msg rest hinbox
      obtain ⟨ch', hopen, h⟩ := bind_eq_ok.1 (some.inj h)
      obtain ⟨⟨msg', ch''⟩, hseal, h⟩ := bind_eq_ok.1 h
      obtain ⟨rfl, rfl⟩ := Prod.mk.inj (Except.ok.inj h)
      obtain rfl := sealToken_eq_ok hseal
      obtain ⟨hsend, hrecv, hhash⟩ := openToken_sameKeys hopen
      exact ⟨Session.accepted_of_openToken hinbox hopen rfl rfl
        (Session.nextRecv_of_agreed ha), ⟨hsend, hrecv, hhash⟩, rfl⟩

/-- A finished run has an agreement and has accepted a confirmation; it returns the derived channel,
and a host the identity of its terms. -/
theorem Session.result_eq_ok (h : s.result P = some (.ok (ch, id))) :
    ∃ a, s.agreed? P = some a ∧ s.Accepted P a ∧ SameKeys ch a.channel ∧
      (a.role = .responder → id = a.terms.clientId) := by
  -- the two client functions end in the same way, and so do the three host functions
  have hclient : (∀ a, s.agreed? P = some a → a.role = .initiator) →
      (clientFinish P (s.agreement P) s.inbox).map (Except.map (·, none)) =
        some (.ok (ch, id)) →
      ∃ a, s.agreed? P = some a ∧ s.Accepted P a ∧ SameKeys ch a.channel ∧
        (a.role = .responder → id = a.terms.clientId) := by
    intro hrole hr
    obtain ⟨r, hr, hmap⟩ := map_eq_some_iff.1 hr
    cases r with
    | error e => simp [Except.map] at hmap
    | ok c =>
      obtain ⟨a, ha, hacc, hsame⟩ := Session.clientFinish_eq_ok hr
      obtain ⟨rfl, -⟩ := Prod.mk.inj (Except.ok.inj hmap)
      refine ⟨a, ha, hacc, hsame, fun hresponder => ?_⟩
      rw [hrole a ha] at hresponder
      cases hresponder
  have hhost : hostFinish P (s.agreement P) s.inbox = some (.ok (ch, id)) →
      ∃ a, s.agreed? P = some a ∧ s.Accepted P a ∧ SameKeys ch a.channel ∧
        (a.role = .responder → id = a.terms.clientId) := by
    intro hr
    obtain ⟨a, ha, hacc, hsame, hid⟩ := Session.hostFinish_eq_ok hr
    exact ⟨a, ha, hacc, hsame, fun _ => hid⟩
  unfold Session.result at h
  cases hconfig : s.config with
  | clientKey identity pinnedHost hybrid =>
    simp only [hconfig] at h
    refine hclient (fun a ha => ?_) h
    cases Session.ran_of_agreed ha with
    | clientKey _ _ _ st _ _ _ _ hhello hreply =>
      obtain ⟨-, hversion, hpq, -⟩ := clientKeyHello_spec hhello
      exact (clientKeyReply_spec hversion hpq hreply).2.1
    | clientPassword _ _ _ _ hc => simp [hconfig] at hc
    | hostKey _ _ _ _ _ hc => simp [hconfig, Config.host] at hc
    | hostPassword _ _ _ _ _ hc => simp [hconfig] at hc
  | clientPassword password hybrid =>
    simp only [hconfig] at h
    refine hclient (fun a ha => ?_) h
    cases Session.ran_of_agreed ha with
    | clientKey _ _ _ _ _ _ hc => simp [hconfig] at hc
    | clientPassword _ _ _ _ _ _ hreply => exact (clientPasswordReply_spec hreply).2.1
    | hostKey _ _ _ _ _ hc => simp [hconfig, Config.host] at hc
    | hostPassword _ _ _ _ _ hc => simp [hconfig] at hc
  | hostKey identity trust | hostPassword password | hostAuto identity password trust =>
    simp only [hconfig] at h
    exact hhost h

/-- A client function returns no identity. -/
theorem Session.result_of_client {finished : Option (SdkResult SealedChannel)}
    (h : finished.map (Except.map (·, none)) = some (.ok (ch, id))) : id = none := by
  obtain ⟨x, -, hx⟩ := map_eq_some_iff.1 h
  cases x with
  | error e => cases hx
  | ok ch' => exact (Prod.mk.inj (Except.ok.inj hx)).2.symm

/-- An identity that a run returns has passed the host's trust check. -/
theorem Session.trust_of_result {id : Str} (h : s.result P = some (.ok (ch, some id))) :
    ∃ identity trust, s.config.host = some (identity, trust) ∧ trust id = true := by
  obtain ⟨a, ha, -, -, hid⟩ := Session.result_eq_ok h
  cases Session.ran_of_agreed ha with
  | clientKey _ _ _ _ _ _ hconfig | clientPassword _ _ _ _ hconfig =>
    simp only [Session.result, hconfig] at h
    cases Session.result_of_client h
  | hostKey identity trust v client rest hconfig hinbox hcontinue =>
    obtain ⟨-, hrole, htrust, _, _, hterms, -⟩ := hostKeyContinue_spec hcontinue
    have hsome := hid hrole
    rw [hterms] at hsome
    cases hsome
    exact ⟨identity, trust, hconfig, htrust⟩
  | hostPassword _ _ _ _ _ _ _ hcontinue =>
    obtain ⟨-, hrole, -, _, _, _, -, hterms, -⟩ := hostPasswordContinue_spec hcontinue
    have hsome := hid hrole
    rw [hterms] at hsome
    cases hsome

end RunFacts

end RivetLink.Sdk
