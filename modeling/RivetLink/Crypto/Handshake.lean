import RivetLink.Crypto.SealedChannel

/-!
# Key exchange

The cryptographic half of the handshakes. In key mode both sides send an ephemeral public key with
a signature over `signatureMessage`, which covers the caller's binding and the ephemeral key, and
derive a channel from the Diffie-Hellman secret (`LocalKeyExchange.intoChannel`). In PIN mode the
secret comes from the password-authenticated exchange (`PakeHandshake.finish`). With ML-KEM its
secret is put in front of the classical one (`inputKey`).
-/

namespace RivetLink.Crypto

open RivetLink.Foundation

def signatureDomain : Bytes := literal "rivetlink-authenticated-kex-v2"

/-- What a key-exchange signature signs. -/
def signatureMessage (binding : Bytes) (ephemeral : FixedBytes 32) : Bytes :=
  signatureDomain ++ beBytes 8 binding.length ++ binding ++ ephemeral.bytes

structure LocalKeyExchange where
  secret : FixedBytes 32
  ephemeralPublic : FixedBytes 32
  signature : FixedBytes 64

/-- Begin a key exchange with the ephemeral secret drawn. -/
def start (S : SignatureScheme) (X : KeyAgreement) (identity : FixedBytes 32) (binding : Bytes)
    (secret : FixedBytes 32) : LocalKeyExchange :=
  { secret := secret
    ephemeralPublic := X.publicKey secret
    signature := S.sign identity (signatureMessage binding (X.publicKey secret)) }

/-- Check the peer's signature over its ephemeral key and the binding. -/
def verifyPeer (S : SignatureScheme) (peerIdentity peerEphemeral : FixedBytes 32)
    (peerSignature : FixedBytes 64) (binding : Bytes) : CryptoResult Unit :=
  if S.verify peerIdentity (signatureMessage binding peerEphemeral) peerSignature then .ok ()
  else .error .invalidSignature

/-- The ML-KEM secret followed by the classical one. -/
def hybridSecret (pq classical : FixedBytes 32) : FixedBytes 64 :=
  ⟨pq.bytes ++ classical.bytes, by simp [pq.size_eq, classical.size_eq]⟩

def inputKey (pq : Option (FixedBytes 32)) (classical : FixedBytes 32) : Bytes :=
  match pq with
  | some pq => (hybridSecret pq classical).bytes
  | none => classical.bytes

/-- Derive the channel from the peer's ephemeral key and the transcript. -/
def LocalKeyExchange.intoChannel (K : Kdf) (X : KeyAgreement) (kex : LocalKeyExchange)
    (peerEphemeral : FixedBytes 32) (pq : Option (FixedBytes 32)) (transcript : Bytes)
    (role : ChannelRole) : CryptoResult SealedChannel :=
  SealedChannel.fromHandshakeSecret K
    (inputKey pq (X.diffieHellman kex.secret peerEphemeral)) transcript role

structure PakeHandshake where
  password : Bytes
  coins : FixedBytes 32

/-- The 32-byte secret of a finished exchange. -/
def PakeHandshake.secret (Q : Pake) (h : PakeHandshake) (peerMessage : Bytes) :
    CryptoResult (FixedBytes 32) :=
  match Q.finish h.password h.coins peerMessage with
  | some key => if hlen : key.length = 32 then .ok ⟨key, hlen⟩ else .error .pakeFailed
  | none => .error .pakeFailed

/-- Derive the channel from the peer's message and the transcript. -/
def PakeHandshake.finish (K : Kdf) (Q : Pake) (h : PakeHandshake) (peerMessage : Bytes)
    (pq : Option (FixedBytes 32)) (transcript : Bytes) (role : ChannelRole) :
    CryptoResult SealedChannel :=
  match h.secret Q peerMessage with
  | .ok secret => SealedChannel.fromHandshakeSecret K (inputKey pq secret) transcript role
  | .error e => .error e

/-! ## Facts -/

/-- What follows the length field of two equal signed messages is equal. -/
theorem signatureMessage_tail {b b' : Bytes} {e e' : FixedBytes 32}
    (h : signatureMessage b e = signatureMessage b' e') : b ++ e.bytes = b' ++ e'.bytes := by
  unfold signatureMessage at h
  simp only [List.append_assoc] at h
  exact (List.append_inj (List.append_cancel_left h) (by simp)).2

theorem verifyPeer_eq_ok {S : SignatureScheme} {vk eph : FixedBytes 32} {sig : FixedBytes 64}
    {binding : Bytes} :
    verifyPeer S vk eph sig binding = .ok () ↔
      S.verify vk (signatureMessage binding eph) sig = true := by
  unfold verifyPeer
  split <;> simp_all

/-- The keying material determines both secrets, when it is known whether ML-KEM was used. -/
theorem inputKey_inj {pq pq' : Option (FixedBytes 32)} {c c' : FixedBytes 32}
    (hpq : pq.isSome = pq'.isSome) (h : inputKey pq c = inputKey pq' c') : pq = pq' ∧ c = c' := by
  cases pq with
  | none =>
    cases pq' with
    | none => exact ⟨rfl, FixedBytes.ext h⟩
    | some q' => simp at hpq
  | some q =>
    cases pq' with
    | none => simp at hpq
    | some q' =>
      obtain ⟨hq, hc⟩ := List.append_inj h (by rw [q.size_eq, q'.size_eq])
      exact ⟨congrArg some (FixedBytes.ext hq), FixedBytes.ext hc⟩

end RivetLink.Crypto
