import RivetLink.Foundation.Primitives
import RivetLink.Foundation.Text

/-!
# The sealed channel

`SealedChannel` is one end of an established session: a key and a counter for each direction, and
the hash of the handshake transcript. `fromHandshakeSecret` derives it, `seal` encrypts under the
next sequence number, `open` accepts exactly the next expected one.

The two specifications used by everything above are `SealedChannel.open_eq_ok_iff`, which says what
an accepted message looks like, and `SealedChannel.open_sealClaimed`, which says that a message
sealed under the expected sequence number is accepted. `SealedChannel.open_error` is the frame
fact: a rejected message leaves the channel alone.

In the source `open` takes the receive counter's mutex for the whole comparison, decryption and
update, so it is one atomic function here. `seal` is not atomic; the function below is a call that
runs without interference, and the counter loop is taken apart in the module on channel pairs.
-/

namespace RivetLink.Crypto

open List Option RivetLink.Foundation

inductive CryptoError where
  | invalidSignature
  | nonceExpired
  | nonceReused
  | untrustedKey
  | keyGeneration (message : String)
  | encryption (message : String)
  | decryption (message : String)
  | replayOrOutOfOrder (expected received : UInt64)
  | nonceExhausted
  | unsupportedWireVersion
  | keyDerivation
  | pqEncapsulation
  | pqDecapsulation
  | hybridKeyDerivation
  | invalidPqSignature
  | unsupportedSuite (message : String)
  | pakeFailed
  deriving DecidableEq, Repr

def CryptoError.text : CryptoError → String
  | .invalidSignature => "invalid signature"
  | .nonceExpired => "nonce expired"
  | .nonceReused => "nonce already used"
  | .untrustedKey => "untrusted public key"
  | .keyGeneration message => "key generation failed: " ++ message
  | .encryption message => "encryption failed: " ++ message
  | .decryption message => "decryption failed: " ++ message
  | .replayOrOutOfOrder expected received =>
    "replayed or out-of-order packet (expected sequence " ++ toString expected ++
      ", received " ++ toString received ++ ")"
  | .nonceExhausted => "sealed-channel nonce sequence exhausted"
  | .unsupportedWireVersion => "unsupported sealed-channel wire version"
  | .keyDerivation => "session key derivation failed"
  | .pqEncapsulation => "post-quantum key encapsulation failed"
  | .pqDecapsulation => "post-quantum decapsulation failed"
  | .hybridKeyDerivation => "hybrid key derivation failed"
  | .invalidPqSignature => "invalid post-quantum signature"
  | .unsupportedSuite message => "crypto suite not supported: " ++ message
  | .pakeFailed => "password authentication failed"

abbrev CryptoResult (α : Type) := Except CryptoError α

def headerLen : Nat := 1 + 8
def tagLen : Nat := 16
def wireVersion : UInt8 := 2
def kdfLabel : Bytes := literal "rivetlink-sealed-channel-v2"
def c2hLabel : Bytes := literal "rivetlink-c2h"
def h2cLabel : Bytes := literal "rivetlink-h2c"

def u64Max : UInt64 := 0xFFFFFFFFFFFFFFFF

/-- Which end of the session owns a channel. -/
inductive ChannelRole where
  | initiator
  | responder
  deriving DecidableEq, Repr

def ChannelRole.peer : ChannelRole → ChannelRole
  | .initiator => .responder
  | .responder => .initiator

@[simp] theorem ChannelRole.peer_peer (r : ChannelRole) : r.peer.peer = r := by
  cases r <;> rfl

theorem ChannelRole.peer_ne (r : ChannelRole) : r.peer ≠ r := by
  cases r <;> decide

theorem ChannelRole.eq_or_eq_peer (r s : ChannelRole) : s = r ∨ s = r.peer := by
  cases r <;> cases s <;> decide

instance (p : ChannelRole → Prop) [DecidablePred p] : Decidable (∀ r, p r) :=
  decidable_of_iff (p .initiator ∧ p .responder)
    ⟨fun h r => by cases r; exacts [h.1, h.2], fun h => ⟨h _, h _⟩⟩

structure SealedChannel where
  sendKey : FixedBytes 32
  recvKey : FixedBytes 32
  bindingHash : FixedBytes 32
  nextSend : UInt64
  nextRecv : UInt64
  deriving DecidableEq

/-- Version byte and sequence number. -/
def header (sequence : UInt64) : FixedBytes 9 :=
  ⟨wireVersion :: beBytes 8 sequence.toNat, by simp⟩

/-- The sequence number in the last eight bytes. -/
def nonce (sequence : UInt64) : FixedBytes 12 :=
  ⟨[0, 0, 0, 0] ++ beBytes 8 sequence.toNat, by simp⟩

/-- Associated data of a message. -/
def aad (header : Bytes) (bindingHash : FixedBytes 32) : Bytes :=
  kdfLabel ++ bindingHash.bytes ++ header

def deriveKey (K : Kdf) (shared transcript label : Bytes) : Option (FixedBytes 32) :=
  K.expand (K.sha256 transcript).bytes shared (kdfLabel ++ label)

/-- The label under which an end derives its sending key. -/
def ChannelRole.sendLabel : ChannelRole → Bytes
  | .initiator => c2hLabel
  | .responder => h2cLabel

namespace SealedChannel

/-- Derive a directional channel from a handshake secret. -/
def fromHandshakeSecret (K : Kdf) (shared transcript : Bytes) (role : ChannelRole) :
    CryptoResult SealedChannel :=
  match deriveKey K shared transcript c2hLabel, deriveKey K shared transcript h2cLabel with
  | some c2h, some h2c =>
    match role with
    | .initiator => .ok ⟨c2h, h2c, K.sha256 transcript, 0, 0⟩
    | .responder => .ok ⟨h2c, c2h, K.sha256 transcript, 0, 0⟩
  | _, _ => .error .keyDerivation

end SealedChannel

/-- The part of `seal` after the counter loop: encrypt under a sequence number that the call has
claimed. -/
def SealedChannel.sealClaimed (A : Aead) (ch : SealedChannel) (sequence : UInt64)
    (plaintext : Bytes) : CryptoResult Bytes :=
  match A.encrypt ch.sendKey (nonce sequence) plaintext
      (aad (header sequence).bytes ch.bindingHash) with
  | .ok ciphertext => .ok ((header sequence).bytes ++ ciphertext)
  | .error e => .error (.encryption e)

/-- Encrypt one message, without interference on the send counter. -/
def SealedChannel.seal (A : Aead) (ch : SealedChannel) (plaintext : Bytes) :
    CryptoResult Bytes × SealedChannel :=
  if ch.nextSend = u64Max then (.error .nonceExhausted, ch)
  else (ch.sealClaimed A ch.nextSend plaintext, { ch with nextSend := ch.nextSend + 1 })

/-- Decrypt one message and step the receive counter. -/
def SealedChannel.open (A : Aead) (ch : SealedChannel) (message : Bytes) :
    CryptoResult Bytes × SealedChannel :=
  if message.length < headerLen + tagLen then
    (.error (.decryption "sealed message too short"), ch)
  else
    let headerBytes := message.take headerLen
    let ciphertext := message.drop headerLen
    if headerBytes.headD 0 ≠ wireVersion then (.error .unsupportedWireVersion, ch)
    else
      let sequence := UInt64.ofNat (readBe (headerBytes.drop 1))
      if sequence ≠ ch.nextRecv then (.error (.replayOrOutOfOrder ch.nextRecv sequence), ch)
      else
        match A.decrypt ch.recvKey (nonce sequence) ciphertext
            (aad headerBytes ch.bindingHash) with
        | .error e => (.error (.decryption e), ch)
        | .ok plaintext =>
          -- `checked_add` on the counter, after the decryption has succeeded
          if ch.nextRecv = u64Max then (.error .nonceExhausted, ch)
          else (.ok plaintext, { ch with nextRecv := ch.nextRecv + 1 })

/-! ## Encodings -/

theorem nonce_inj {m n : UInt64} (h : nonce m = nonce n) : m = n := by
  have hbytes := congrArg FixedBytes.bytes h
  exact beBytes_uint64_inj (append_cancel_left hbytes)

@[simp] theorem length_header (sequence : UInt64) :
    (header sequence).bytes.length = headerLen := (header sequence).size_eq

/-- Nine bytes that start with the version are the header of the number they encode. -/
theorem eq_header {b : Bytes} (hlen : b.length = headerLen) (hversion : b.headD 0 = wireVersion) :
    b = (header (UInt64.ofNat (readBe (b.drop 1)))).bytes := by
  cases b with
  | nil => simp [headerLen] at hlen
  | cons v rest =>
    have hrest : rest.length = 8 := by simpa [headerLen] using hlen
    have hlt : readBe rest < 2 ^ 64 := by
      have h := readBe_lt rest
      rw [hrest] at h
      exact lt_of_lt_of_eq h (by decide)
    have hv : v = wireVersion := hversion
    have hseq : (UInt64.ofNat (readBe rest)).toNat = readBe rest := by
      rw [UInt64.toNat_ofNat']
      exact Nat.mod_eq_of_lt hlt
    have hback : beBytes 8 (readBe rest) = rest := by
      have h := beBytes_readBe rest
      rwa [hrest] at h
    simp only [drop_one, tail_cons, header, hseq, hback, hv]

theorem ofNat_readBe_header (sequence : UInt64) :
    UInt64.ofNat (readBe ((header sequence).bytes.drop 1)) = sequence := by
  have hread : readBe (beBytes 8 sequence.toNat) = sequence.toNat := by
    rw [readBe_beBytes]
    exact Nat.mod_eq_of_lt (lt_of_lt_of_eq sequence.toNat_lt (by decide))
  simp only [header, drop_one, tail_cons, hread, UInt64.ofNat_toNat]

/-- Below the maximum, adding one does not wrap. -/
theorem toNat_succ_of_ne_u64Max {n : UInt64} (h : n ≠ u64Max) : (n + 1).toNat = n.toNat + 1 := by
  have hlt := n.toNat_lt
  have hne : n.toNat ≠ u64Max.toNat := fun he => h (UInt64.toNat_inj.1 he)
  have hval : u64Max.toNat = 2 ^ 64 - 1 := by decide
  rw [UInt64.toNat_add]
  have hone : (1 : UInt64).toNat = 1 := rfl
  omega

/-! ## Derivation -/

namespace SealedChannel

variable {K : Kdf} {A : Aead} {shared transcript plaintext : Bytes} {role : ChannelRole}
  {ch : SealedChannel} {sequence : UInt64}

/-- A derived channel has the key of its own label for sending, that of the peer's label for
receiving, the hash of the transcript, and both counters at zero. -/
theorem fromHandshakeSecret_eq_ok :
    fromHandshakeSecret K shared transcript role = .ok ch ↔
      deriveKey K shared transcript role.sendLabel = some ch.sendKey ∧
      deriveKey K shared transcript role.peer.sendLabel = some ch.recvKey ∧
      ch.bindingHash = K.sha256 transcript ∧ ch.nextSend = 0 ∧ ch.nextRecv = 0 := by
  cases ch
  unfold fromHandshakeSecret
  cases role <;> cases hc : deriveKey K shared transcript c2hLabel <;>
    cases hh : deriveKey K shared transcript h2cLabel <;>
    simp only [ChannelRole.sendLabel, ChannelRole.peer, hc, hh, reduceCtorEq, some.injEq,
      Except.ok.injEq, SealedChannel.mk.injEq, false_and, and_false] <;> tauto

/-! ## Opening -/

/-- A rejected message leaves the channel as it was. -/
theorem open_error {message : Bytes} {e : CryptoError} (h : (ch.open A message).1 = .error e) :
    (ch.open A message).2 = ch := by
  unfold SealedChannel.open at h ⊢
  split
  · rfl
  · dsimp only at h ⊢
    split
    · rfl
    · split
      · rfl
      · split
        · rfl
        · split
          · rfl
          · simp_all

/-- An accepted message consists of the header of the expected sequence number and a ciphertext
that decrypts under that number's nonce and associated data; the receive counter moves by one. -/
theorem open_eq_ok_iff {message : Bytes} {ch' : SealedChannel} :
    ch.open A message = (.ok plaintext, ch') ↔
      ∃ ciphertext : Bytes, message = (header ch.nextRecv).bytes ++ ciphertext ∧
        tagLen ≤ ciphertext.length ∧ ch.nextRecv ≠ u64Max ∧
        A.decrypt ch.recvKey (nonce ch.nextRecv) ciphertext
          (aad (header ch.nextRecv).bytes ch.bindingHash) = .ok plaintext ∧
        ch' = { ch with nextRecv := ch.nextRecv + 1 } := by
  constructor
  · intro h
    unfold SealedChannel.open at h
    by_cases hlen : message.length < headerLen + tagLen
    · rw [if_pos hlen] at h
      cases h
    rw [if_neg hlen] at h
    dsimp only at h
    by_cases hversion : (message.take headerLen).headD 0 ≠ wireVersion
    · rw [if_pos hversion] at h
      cases h
    rw [if_neg hversion] at h
    by_cases hseq : UInt64.ofNat (readBe ((message.take headerLen).drop 1)) ≠ ch.nextRecv
    · rw [if_pos hseq] at h
      cases h
    rw [if_neg hseq] at h
    push Not at hversion hseq
    have hheader : message.take headerLen = (header ch.nextRecv).bytes := by
      rw [← hseq]
      refine eq_header ?_ hversion
      rw [length_take]
      omega
    rw [hseq, hheader] at h
    refine ⟨message.drop headerLen, ?_, ?_, ?_⟩
    · rw [← hheader, take_append_drop]
    · rw [length_drop]
      omega
    · cases hdec : A.decrypt ch.recvKey (nonce ch.nextRecv) (message.drop headerLen)
          (aad (header ch.nextRecv).bytes ch.bindingHash) with
      | error e =>
        rw [hdec] at h
        cases h
      | ok m =>
        rw [hdec] at h
        dsimp only at h
        by_cases hmax : ch.nextRecv = u64Max
        · rw [if_pos hmax] at h
          cases h
        · rw [if_neg hmax] at h
          cases h
          exact ⟨hmax, rfl, rfl⟩
  · rintro ⟨ciphertext, rfl, htag, hmax, hdec, rfl⟩
    have hlen : ¬ ((header ch.nextRecv).bytes ++ ciphertext).length < headerLen + tagLen := by
      rw [length_append, length_header]
      omega
    have htake : ((header ch.nextRecv).bytes ++ ciphertext).take headerLen =
        (header ch.nextRecv).bytes := by
      rw [← length_header ch.nextRecv, take_left]
    have hdrop : ((header ch.nextRecv).bytes ++ ciphertext).drop headerLen = ciphertext := by
      rw [← length_header ch.nextRecv, drop_left]
    have hversion : (header ch.nextRecv).bytes.headD 0 = wireVersion := rfl
    unfold SealedChannel.open
    rw [if_neg hlen]
    simp only [htake, hdrop, hversion, ofNat_readBe_header, ne_eq, not_true_eq_false, if_false,
      hdec, hmax]

/-! ## Sealing -/

theorem sealClaimed_eq_ok {frame : Bytes} :
    ch.sealClaimed A sequence plaintext = .ok frame ↔
      ∃ ciphertext, A.encrypt ch.sendKey (nonce sequence) plaintext
          (aad (header sequence).bytes ch.bindingHash) = .ok ciphertext ∧
        frame = (header sequence).bytes ++ ciphertext := by
  unfold sealClaimed
  split
  · rename_i ciphertext henc
    simp [henc, eq_comm]
  · rename_i e henc
    simp [henc]

/-- What one end seals under the sequence number that the other expects, the other accepts. -/
theorem open_sealClaimed {sender receiver : SealedChannel} {frame : Bytes}
    (hkey : receiver.recvKey = sender.sendKey) (hhash : receiver.bindingHash = sender.bindingHash)
    (hseq : receiver.nextRecv = sequence) (hmax : sequence ≠ u64Max)
    (hseal : sender.sealClaimed A sequence plaintext = .ok frame) :
    receiver.open A frame = (.ok plaintext, { receiver with nextRecv := sequence + 1 }) := by
  obtain ⟨ciphertext, henc, rfl⟩ := sealClaimed_eq_ok.1 hseal
  subst hseq
  refine open_eq_ok_iff.2 ⟨ciphertext, rfl, ?_, hmax, ?_, rfl⟩
  · rw [A.length_encrypt henc]
    exact Nat.le_add_left _ _
  · rw [hkey, hhash]
    exact A.decrypt_encrypt henc

/-- At the end of the sequence numbers sealing fails and leaves the channel as it was. -/
theorem seal_exhausted (hmax : ch.nextSend = u64Max) (plaintext : Bytes) :
    ch.seal A plaintext = (.error .nonceExhausted, ch) := by
  simp [SealedChannel.seal, hmax]

end SealedChannel

end RivetLink.Crypto
