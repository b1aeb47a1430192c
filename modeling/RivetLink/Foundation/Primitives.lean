import RivetLink.Foundation.Bytes

/-!
# Interfaces of cryptographic primitives

`Aead` is an authenticated cipher with a 32-byte key, a 12-byte nonce and a 16-byte tag. Its laws
are the functional ones: decryption inverts encryption, and a ciphertext is one tag longer than its
message. `Kdf` is a hash function with 32-byte output together with an extract-and-expand key
derivation. `SignatureScheme`, `KeyAgreement`, `Kem` and `Pake` are the public-key ones. Randomness
is an argument everywhere: a secret key, a seed or the coins of one run.

Security is not a law of these functions, since no function of bounded output can be injective and
every cipher accepts some ciphertexts nobody produced. It is stated where it is used, about the
values that occur in a run: `Performed` records an encryption that was carried out, and
`Aead.Authentic` says of one ciphertext that it is rejected unless it was the output of a recorded
encryption under the same key, nonce and associated data.

The instances at the end have no secrecy at all. They meet the laws and are small enough to
evaluate.
-/

namespace RivetLink.Foundation

/-- An authenticated cipher with associated data. Both operations report failure as a text. -/
structure Aead where
  encrypt : (key : FixedBytes 32) → (nonce : FixedBytes 12) → (msg aad : Bytes) →
    Except String Bytes
  decrypt : (key : FixedBytes 32) → (nonce : FixedBytes 12) → (msg aad : Bytes) →
    Except String Bytes
  decrypt_encrypt : ∀ {key nonce msg aad c}, encrypt key nonce msg aad = .ok c →
    decrypt key nonce c aad = .ok msg
  length_encrypt : ∀ {key nonce msg aad c}, encrypt key nonce msg aad = .ok c →
    c.length = msg.length + 16

/-- A hash function and the key derivation built on it. `expand` derives 32 bytes from a salt, the
input keying material and an info string. -/
structure Kdf where
  sha256 : Bytes → FixedBytes 32
  expand : (salt ikm info : Bytes) → Option (FixedBytes 32)

/-- A signature scheme. `parseKey` is the check a public key passes when it is read. -/
structure SignatureScheme where
  verifyingKey : (signingKey : FixedBytes 32) → FixedBytes 32
  parseKey : (key : FixedBytes 32) → Except String Unit
  sign : (signingKey : FixedBytes 32) → (message : Bytes) → FixedBytes 64
  verify : (verifyingKey : FixedBytes 32) → (message : Bytes) → (signature : FixedBytes 64) → Bool
  parse_verifyingKey : ∀ sk, parseKey (verifyingKey sk) = .ok ()
  verify_sign : ∀ sk m, verify (verifyingKey sk) m (sign sk m) = true

structure KeyAgreement where
  publicKey : (secret : FixedBytes 32) → FixedBytes 32
  diffieHellman : (secret peer : FixedBytes 32) → FixedBytes 32
  diffieHellman_comm : ∀ a b,
    diffieHellman a (publicKey b) = diffieHellman b (publicKey a)

/-- A key encapsulation mechanism; a decapsulation key is given by its seed. Encoded keys and
ciphertexts of the wrong form are refused. -/
structure Kem where
  encapsulationKey : (seed : FixedBytes 32) → Bytes
  encapsulate : (key : Bytes) → (coins : FixedBytes 32) → Option (Bytes × FixedBytes 32)
  decapsulate : (seed : FixedBytes 32) → (ciphertext : Bytes) → Option (FixedBytes 32)
  decapsulate_encapsulate : ∀ {seed coins c ss},
    encapsulate (encapsulationKey seed) coins = some (c, ss) → decapsulate seed c = some ss
  length_encapsulationKey : ∀ seed, (encapsulationKey seed).length < 2 ^ 32
  length_ciphertext : ∀ {key coins c ss}, encapsulate key coins = some (c, ss) →
    c.length < 2 ^ 32

/-- A symmetric password-authenticated key agreement: both sides send the same kind of message, and
the key depends on the password, the own coins and the peer's message. -/
structure Pake where
  message : (password : Bytes) → (coins : FixedBytes 32) → Buffer
  finish : (password : Bytes) → (coins : FixedBytes 32) → (peer : Bytes) → Option Bytes
  finish_comm : ∀ password a b,
    finish password a (message password b).bytes = finish password b (message password a).bytes
  length_message : ∀ password coins, (message password coins).bytes.length < 2 ^ 32

structure Performed (A : Aead) where
  key : FixedBytes 32
  nonce : FixedBytes 12
  msg : Bytes
  aad : Bytes
  ciphertext : Bytes
  encrypted : A.encrypt key nonce msg aad = .ok ciphertext

namespace Aead

variable (A : Aead)

/-- The ciphertext is rejected unless it was produced under the same key, nonce and associated
data. -/
def Authentic (log : List (Performed A)) (key : FixedBytes 32) (nonce : FixedBytes 12)
    (ciphertext aad : Bytes) : Prop :=
  (A.decrypt key nonce ciphertext aad).isOk = true →
    ∃ e ∈ log, e.key = key ∧ e.nonce = nonce ∧ e.ciphertext = ciphertext ∧ e.aad = aad

instance (log : List (Performed A)) (key : FixedBytes 32) (nonce : FixedBytes 12)
    (ciphertext aad : Bytes) : Decidable (A.Authentic log key nonce ciphertext aad) := by
  unfold Authentic
  infer_instance

variable {A}

/-- What an authentic ciphertext decrypts to is the message of a recorded encryption. -/
theorem Authentic.exists_performed {log : List (Performed A)} {key : FixedBytes 32}
    {nonce : FixedBytes 12} {ciphertext aad msg : Bytes}
    (h : A.Authentic log key nonce ciphertext aad)
    (hdec : A.decrypt key nonce ciphertext aad = .ok msg) :
    ∃ e ∈ log, e.key = key ∧ e.nonce = nonce ∧ e.ciphertext = ciphertext ∧ e.aad = aad ∧
      e.msg = msg := by
  obtain ⟨e, he, rfl, rfl, rfl, rfl⟩ := h (by rw [hdec]; rfl)
  have hmsg := A.decrypt_encrypt e.encrypted
  rw [hdec] at hmsg
  exact ⟨e, he, rfl, rfl, rfl, rfl, (Except.ok.inj hmsg).symm⟩

end Aead

/-! ## Instances that can be evaluated -/

/-- The first `n` bytes, filled up with zeros. -/
def padTo (n : Nat) (b : Bytes) : FixedBytes n :=
  ⟨(b ++ List.replicate n 0).take n, by simp⟩

/-- A cipher that leaves the message in the clear and tags it with parts of key and nonce. -/
def Aead.transparent : Aead where
  encrypt key nonce msg _ := .ok (msg ++ (padTo 16 (key.bytes.take 8 ++ nonce.bytes.drop 4)).bytes)
  decrypt key nonce msg _ :=
    if msg.drop (msg.length - 16) = (padTo 16 (key.bytes.take 8 ++ nonce.bytes.drop 4)).bytes then
      .ok (msg.take (msg.length - 16))
    else .error "aead::Error"
  decrypt_encrypt := by
    intro key nonce msg aad c h
    have hc := Except.ok.inj h
    have htag := (padTo 16 (key.bytes.take 8 ++ nonce.bytes.drop 4)).size_eq
    subst hc
    simp [htag]
  length_encrypt := by
    intro key nonce msg aad c h
    have hc := Except.ok.inj h
    subst hc
    rw [List.length_append, (padTo 16 (key.bytes.take 8 ++ nonce.bytes.drop 4)).size_eq]

/-- A hash that keeps the last 32 bytes, and a derivation that keeps parts of its three inputs. -/
def Kdf.truncating : Kdf where
  sha256 b := padTo 32 b.reverse
  expand salt ikm info := some (padTo 32 (info.reverse.take 3 ++ ikm.take 5 ++ salt.take 24))

/-- A signature that repeats part of the key and the end of the message. -/
def SignatureScheme.transparent : SignatureScheme where
  verifyingKey sk := sk
  parseKey _ := .ok ()
  sign sk m := padTo 64 (sk.bytes.take 8 ++ m.reverse.take 56)
  verify vk m sig := sig = padTo 64 (vk.bytes.take 8 ++ m.reverse.take 56)
  parse_verifyingKey _ := rfl
  verify_sign _ _ := by simp

/-- Bytewise sum of two arrays. -/
def addBytes {n : Nat} (a b : FixedBytes n) : FixedBytes n :=
  ⟨List.zipWith (· + ·) a.bytes b.bytes, by simp [a.size_eq, b.size_eq]⟩

theorem addBytes_comm {n : Nat} (a b : FixedBytes n) : addBytes a b = addBytes b a :=
  FixedBytes.ext (List.zipWith_comm_of_comm fun x y => UInt8.add_comm x y)

/-- A key agreement whose public keys are the secrets. -/
def KeyAgreement.additive : KeyAgreement where
  publicKey secret := secret
  diffieHellman := addBytes
  diffieHellman_comm := addBytes_comm

/-- A key encapsulation whose keys and ciphertexts are the random values. -/
def Kem.additive : Kem where
  encapsulationKey seed := seed.bytes
  encapsulate key coins :=
    if h : key.length = 32 then some (coins.bytes, addBytes ⟨key, h⟩ coins) else none
  decapsulate seed ciphertext :=
    if h : ciphertext.length = 32 then some (addBytes seed ⟨ciphertext, h⟩) else none
  decapsulate_encapsulate := by
    intro seed coins c ss h
    simp only [seed.size_eq, dite_true, Option.some.injEq, Prod.mk.injEq] at h
    obtain ⟨rfl, rfl⟩ := h
    simp [coins.size_eq]
  length_encapsulationKey seed := by
    rw [seed.size_eq]
    decide
  length_ciphertext := by
    intro key coins c ss h
    split at h
    · simp only [Option.some.injEq, Prod.mk.injEq] at h
      rw [← h.1, coins.size_eq]
      decide
    · simp at h

/-- A password-authenticated exchange whose messages are the coins and whose key starts with the
password. -/
def Pake.additive : Pake where
  message _ coins := coins.toBuffer FixedBytes.thirtyTwo_lt
  finish password coins peer :=
    if h : peer.length = 32 then
      some (padTo 32 (password.take 4 ++ (addBytes coins ⟨peer, h⟩).bytes)).bytes
    else none
  finish_comm := by
    intro password a b
    rw [dif_pos (show (b.toBuffer FixedBytes.thirtyTwo_lt).bytes.length = 32 from b.size_eq),
      dif_pos (show (a.toBuffer FixedBytes.thirtyTwo_lt).bytes.length = 32 from a.size_eq)]
    exact congrArg (fun k => some (padTo 32 (password.take 4 ++ k.bytes)).bytes) (addBytes_comm a b)
  length_message password coins := by
    rw [FixedBytes.toBuffer_bytes, coins.size_eq]
    decide

end RivetLink.Foundation
