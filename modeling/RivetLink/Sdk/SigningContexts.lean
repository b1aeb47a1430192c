import RivetLink.Crypto.Handshake
import RivetLink.Sdk.DirectTranscripts

/-!
# The contexts in which an identity key signs

An identity key signs in six contexts: the client's and the host's side of a direct key exchange,
the two sides of a relay key exchange, the device challenge of the gateway, and the identity proof
of a LAN session. `Signed B c m` says that `m` is a message of context `c`, for some values of its
fields. `contextOf` reads the context off three bytes of a message; since it is right for every
signed message (`contextOf_eq_of_signed`), messages of different contexts differ.

`transcripts_injective_contexts_disjoint` puts this together with what the transcripts and bindings
of the direct handshake determine. The bindings do not determine the base64 text of an identity;
`clientKexBinding_trims_identity` is an instance.
-/

namespace RivetLink.Sdk

open List Option RivetLink.Foundation RivetLink.Crypto

/-! ## Messages outside the direct handshake -/

def hexByte (b : UInt8) : List Char :=
  [("0123456789abcdef".toList).getD (b.toNat / 16) '0',
    ("0123456789abcdef".toList).getD (b.toNat % 16) '0']

/-- The hyphenated form of a UUID: groups of 8, 4, 4, 4 and 12 digits. -/
def Uuid.hyphenated (u : Uuid) : List Char :=
  (u.bytes.take 4).flatMap hexByte ++ '-' :: ((u.bytes.drop 4).take 2).flatMap hexByte ++
    '-' :: ((u.bytes.drop 6).take 2).flatMap hexByte ++
    '-' :: ((u.bytes.drop 8).take 2).flatMap hexByte ++ '-' :: (u.bytes.drop 10).flatMap hexByte

def relayKexBinding (sessionId : Uuid) (role : Bytes) (identityB64 : Str) : Bytes :=
  literal "rivetlink-relay-v2" ++ utf8 (Uuid.hyphenated sessionId) ++ role ++
    identityB64.trim.asBytes.bytes

def deviceAuthProtocolVersion : UInt16 := 2
def deviceAuthDomain : Bytes := literal "rivetlink-relay-device-auth-v2"

/-- The gateway's challenge, as the device signs it. -/
def deviceChallengeBinding (deviceId : Uuid) (nonce : FixedBytes 32) : Bytes :=
  deviceAuthDomain ++ beBytes 2 deviceAuthProtocolVersion.toNat ++ deviceId.bytes ++ nonce.bytes

def identityContext : Bytes := literal "rivetlink-lan-identify-v1"

/-- What a LAN client signs to prove that it holds the key it announces. -/
def identityProofMessage (publicKey : FixedBytes 32) : Bytes := identityContext ++ publicKey.bytes

/-! ## Contexts -/

inductive SigningContext where
  | directClient
  | directHost
  | relayClient
  | relayHost
  | deviceChallenge
  | lanIdentity
  deriving DecidableEq, Repr

/-- The messages of each context. -/
inductive Signed (B : Base64) : SigningContext → Bytes → Prop where
  | directClient {version : UInt16} {id : Str} {pq : Option Str} {binding : Bytes}
      (eph : FixedBytes 32) (h : clientKexBinding B version id pq = .ok binding) :
      Signed B .directClient (signatureMessage binding eph)
  | directHost {version : UInt16} {id : Str} {hash : FixedBytes 32} {pq : Option Str}
      {binding : Bytes} (eph : FixedBytes 32)
      (h : hostKexBinding B version id hash pq = .ok binding) :
      Signed B .directHost (signatureMessage binding eph)
  | relayClient (sessionId : Uuid) (identity : Str) (eph : FixedBytes 32) :
      Signed B .relayClient
        (signatureMessage (relayKexBinding sessionId (literal "client") identity) eph)
  | relayHost (sessionId : Uuid) (identity : Str) (eph : FixedBytes 32) :
      Signed B .relayHost
        (signatureMessage (relayKexBinding sessionId (literal "host") identity) eph)
  | deviceChallenge (deviceId : Uuid) (nonce : FixedBytes 32) :
      Signed B .deviceChallenge (deviceChallengeBinding deviceId nonce)
  | lanIdentity (publicKey : FixedBytes 32) :
      Signed B .lanIdentity (identityProofMessage publicKey)

/-- The context of a message, read off the byte after the common start of the domains, then the
byte after the common start of the bindings, then the first byte of the role. -/
def contextOf (m : Bytes) : Option SigningContext :=
  if m[10]? = some 0x6c then some .lanIdentity
  else if m[10]? = some 0x72 then some .deviceChallenge
  else if m[38 + 10]? = some 0x64 then
    if m[38 + (21 + 0)]? = some 0x63 then some .directClient else some .directHost
  else if m[38 + (54 + 0)]? = some 0x63 then some .relayClient else some .relayHost

/-- A byte of the part after a part of known length. -/
theorem getElem?_append_add {p r : Bytes} {n i : Nat} (h : p.length = n) :
    (p ++ r)[n + i]? = r[i]? := by
  rw [getElem?_append_right (by omega), h, Nat.add_sub_cancel_left]

theorem length_hyphenated (u : Uuid) : (utf8 (Uuid.hyphenated u)).length = 36 := by
  have hall : ∀ b : UInt8, (utf8 (hexByte b)).length = 2 := by
    have hfin : ∀ n : Fin 256, (utf8 (hexByte (UInt8.ofNat n.val))).length = 2 := by decide +kernel
    intro b
    have h := hfin ⟨b.toNat, b.toNat_lt⟩
    rwa [UInt8.ofNat_toNat] at h
  have hmany : ∀ bs : Bytes, (utf8 (bs.flatMap hexByte)).length = 2 * bs.length := by
    intro bs
    induction bs with
    | nil => rfl
    | cons b bs ih =>
      have hb := hall b
      simp only [utf8, flatMap_cons, flatMap_append, length_append,
        length_cons] at *
      omega
  have hdash : (utf8 ['-']).length = 1 := by decide
  have happend : ∀ a b : List Char, (utf8 (a ++ b)).length = (utf8 a).length + (utf8 b).length := by
    intro a b
    simp [utf8, flatMap_append]
  have hcons : ∀ cs : List Char, (utf8 ('-' :: cs)).length = 1 + (utf8 cs).length := by
    intro cs
    rw [← singleton_append, happend, hdash]
  have hsize := u.size_eq
  simp only [Uuid.hyphenated, happend, hcons, hmany, length_take, length_drop, hsize]
  decide

/-- The start of a key-exchange message and the byte positions of its binding. -/
theorem signatureMessage_getElem? (b : Bytes) (e : FixedBytes 32) :
    (signatureMessage b e)[10]? = some 0x61 ∧
      ∀ i, i < b.length → (signatureMessage b e)[38 + i]? = b[i]? := by
  have hdomain : signatureDomain.length = 30 := by decide
  constructor
  · unfold signatureMessage
    rw [append_assoc, append_assoc, getElem?_append_left (by rw [hdomain]; decide)]
    decide
  · intro i hi
    unfold signatureMessage
    rw [append_assoc, getElem?_append_add (by rw [length_append, hdomain, length_beBytes]),
      getElem?_append_left hi]

theorem preamble_getElem? (v : UInt16) (tag r : Bytes) (htag : tag ≠ []) :
    (preamble v tag ++ r)[10]? = some 0x64 ∧ (preamble v tag ++ r)[21 + 0]? = tag[0]? ∧
      22 ≤ (preamble v tag ++ r).length := by
  have hdomain : directDomain.length = 19 := by decide
  have hlen : 1 ≤ tag.length := length_pos_of_ne_nil htag
  refine ⟨?_, ?_, ?_⟩
  · unfold preamble
    rw [append_assoc, append_assoc, getElem?_append_left (by rw [hdomain]; decide)]
    decide
  · unfold preamble
    rw [append_assoc, getElem?_append_add (by rw [length_append, hdomain, length_beBytes]),
      getElem?_append_left (by omega)]
  · simp only [preamble, length_append, hdomain, length_beBytes]
    omega

theorem relayKexBinding_getElem? (sessionId : Uuid) (role : Bytes) (identity : Str)
    (hrole : role ≠ []) :
    (relayKexBinding sessionId role identity)[10]? = some 0x72 ∧
      (relayKexBinding sessionId role identity)[54 + 0]? = role[0]? ∧
      55 ≤ (relayKexBinding sessionId role identity).length := by
  have hdomain : (literal "rivetlink-relay-v2").length = 18 := by decide
  have hlen : 1 ≤ role.length := length_pos_of_ne_nil hrole
  have huuid := length_hyphenated sessionId
  refine ⟨?_, ?_, ?_⟩
  · unfold relayKexBinding
    rw [append_assoc, append_assoc, getElem?_append_left (by rw [hdomain]; decide)]
    decide
  · unfold relayKexBinding
    rw [append_assoc, getElem?_append_add (by rw [length_append, hdomain, huuid]),
      getElem?_append_left (by omega)]
  · simp only [relayKexBinding, length_append, hdomain, huuid]
    omega

variable {m : Bytes} {B : Base64}

/-- The context read off a signed message is the context it was made for. -/
theorem contextOf_eq_of_signed {c : SigningContext} (h : Signed B c m) : contextOf m = some c := by
  cases h with
  | @directClient version id pq binding eph h =>
    obtain ⟨key, -, rfl⟩ := clientKexBinding_eq_ok.1 h
    obtain ⟨hten, htag, hlen⟩ := preamble_getElem? version (literal "client-kex")
      (encodeFields (key.toBuffer FixedBytes.thirtyTwo_lt :: pq.toList.map Str.asBytes))
      (by decide)
    obtain ⟨hstart, hbinding⟩ := signatureMessage_getElem? (preamble version
      (literal "client-kex") ++ encodeFields (key.toBuffer FixedBytes.thirtyTwo_lt ::
        pq.toList.map Str.asBytes)) eph
    unfold contextOf
    rw [hstart, hbinding 10 (by omega), hbinding (21 + 0) (by omega), hten, htag]
    rfl
  | @directHost version id hash pq binding eph h =>
    obtain ⟨key, -, rfl⟩ := hostKexBinding_eq_ok.1 h
    obtain ⟨hten, htag, hlen⟩ := preamble_getElem? version (literal "host-kex")
      (encodeFields (key.toBuffer FixedBytes.thirtyTwo_lt ::
        hash.toBuffer FixedBytes.thirtyTwo_lt :: pq.toList.map Str.asBytes)) (by decide)
    obtain ⟨hstart, hbinding⟩ := signatureMessage_getElem? (preamble version
      (literal "host-kex") ++ encodeFields (key.toBuffer FixedBytes.thirtyTwo_lt ::
        hash.toBuffer FixedBytes.thirtyTwo_lt :: pq.toList.map Str.asBytes)) eph
    unfold contextOf
    rw [hstart, hbinding 10 (by omega), hbinding (21 + 0) (by omega), hten, htag]
    rfl
  | relayClient sessionId identity eph =>
    obtain ⟨hten, hrole, hlen⟩ := relayKexBinding_getElem? sessionId (literal "client") identity
      (by decide)
    obtain ⟨hstart, hbinding⟩ := signatureMessage_getElem?
      (relayKexBinding sessionId (literal "client") identity) eph
    unfold contextOf
    rw [hstart, hbinding 10 (by omega), hbinding (54 + 0) (by omega), hten, hrole]
    rfl
  | relayHost sessionId identity eph =>
    obtain ⟨hten, hrole, hlen⟩ := relayKexBinding_getElem? sessionId (literal "host") identity
      (by decide)
    obtain ⟨hstart, hbinding⟩ := signatureMessage_getElem?
      (relayKexBinding sessionId (literal "host") identity) eph
    unfold contextOf
    rw [hstart, hbinding 10 (by omega), hbinding (54 + 0) (by omega), hten, hrole]
    rfl
  | deviceChallenge deviceId nonce =>
    have hdomain : deviceAuthDomain.length = 30 := by decide
    have hten : (deviceChallengeBinding deviceId nonce)[10]? = some 0x72 := by
      unfold deviceChallengeBinding
      rw [append_assoc, append_assoc,
        getElem?_append_left (by rw [hdomain]; decide)]
      decide
    simp [contextOf, hten]
  | lanIdentity publicKey =>
    have hdomain : identityContext.length = 25 := by decide
    have hten : (identityProofMessage publicKey)[10]? = some 0x6c := by
      unfold identityProofMessage
      rw [getElem?_append_left (by rw [hdomain]; decide)]
      decide
    simp [contextOf, hten]

/-- Messages of different contexts differ. -/
theorem signed_context_unique {c c' : SigningContext} (h : Signed B c m) (h' : Signed B c' m) :
    c = c' :=
  some.inj ((contextOf_eq_of_signed h).symm.trans (contextOf_eq_of_signed h'))

/-! ## Injectivity and separation -/

/-- A base64 identity of 32 zero bytes, with white space in front of it or not. -/
def zeroIdentity (spaces : Nat) (h : spaces ≤ 8) : Str :=
  ⟨List.replicate spaces ' ' ++ (List.replicate 43 'A' ++ ['=']), by
    have hall : ∀ n : Fin 9, (utf8 (List.replicate n.val ' ' ++
        (List.replicate 43 'A' ++ ['=']))).length < 2 ^ 63 := by decide +kernel
    exact hall ⟨spaces, by omega⟩⟩

/-- The client's binding does not determine the text of the identity: with the standard codec, a
leading space changes the text and not the binding. -/
theorem clientKexBinding_trims_identity :
    zeroIdentity 1 (by decide) ≠ zeroIdentity 0 (by decide) ∧
    (clientKexBinding Base64.standard classicVersion (zeroIdentity 0 (by decide)) none).isOk ∧
    clientKexBinding Base64.standard classicVersion (zeroIdentity 1 (by decide)) none =
      clientKexBinding Base64.standard classicVersion (zeroIdentity 0 (by decide)) none := by
  refine ⟨by decide +kernel, by decide +kernel, by decide +kernel⟩

/-- Injectivity and domain separation. The two transcripts determine the version and every field,
for fields that match the version. The two bindings determine the version, the decoded identity
key, the hash of the client's fields and the ML-KEM field. Messages signed in different contexts
differ for all values of their fields, so a signature that verifies for one message only, and does
so for a message of one context, does not verify for any message of another. -/
theorem transcripts_injective_contexts_disjoint (B : Base64) :
    (∀ (v v' : UInt16) (client host client' host' : KexFields),
      VersionMatches v client.pq host.pq → VersionMatches v' client'.pq host'.pq →
      kexTranscript v client host = kexTranscript v' client' host' →
      v = v' ∧ client = client' ∧ host = host') ∧
    (∀ (v v' : UInt16) (cm hm cm' hm' : Buffer) (cp hp cp' hp' : Option Str),
      VersionMatches v cp hp → VersionMatches v' cp' hp' →
      pakeTranscript v cm hm cp hp = pakeTranscript v' cm' hm' cp' hp' →
      v = v' ∧ cm = cm' ∧ hm = hm' ∧ cp = cp' ∧ hp = hp') ∧
    (∀ (v v' : UInt16) (id id' : Str) (pq pq' : Option Str) (b : Bytes),
      clientKexBinding B v id pq = .ok b → clientKexBinding B v' id' pq' = .ok b →
      v = v' ∧ decodeN B 32 id = decodeN B 32 id' ∧ pq = pq') ∧
    (∀ (v v' : UInt16) (id id' : Str) (hash hash' : FixedBytes 32) (pq pq' : Option Str)
      (b : Bytes),
      hostKexBinding B v id hash pq = .ok b → hostKexBinding B v' id' hash' pq' = .ok b →
      v = v' ∧ decodeN B 32 id = decodeN B 32 id' ∧ hash = hash' ∧ pq = pq') ∧
    (∀ (c c' : SigningContext) (m m' : Bytes), c ≠ c' → Signed B c m → Signed B c' m' → m ≠ m') ∧
    (∀ (S : SignatureScheme) (vk : FixedBytes 32) (sig : FixedBytes 64),
      (∀ m m', S.verify vk m sig = true → S.verify vk m' sig = true → m = m') →
      ∀ (c c' : SigningContext) (m m' : Bytes), c ≠ c' → Signed B c m → Signed B c' m' →
        S.verify vk m sig = true → S.verify vk m' sig = false) := by
  have hdisjoint : ∀ (c c' : SigningContext) (m m' : Bytes), c ≠ c' → Signed B c m →
      Signed B c' m' → m ≠ m' := by
    rintro c c' m m' hne hm hm' rfl
    exact hne (signed_context_unique hm hm')
  refine ⟨?_, ?_, ?_, ?_, hdisjoint, ?_⟩
  · exact fun _ _ _ _ _ _ hv hv' h => kexTranscript_inj hv hv' h
  · exact fun _ _ _ _ _ _ _ _ _ _ hv hv' h => pakeTranscript_inj hv hv' h
  · exact fun _ _ _ _ _ _ _ h h' => clientKexBinding_inj h h'
  · exact fun _ _ _ _ _ _ _ _ _ h h' => hostKexBinding_inj h h'
  · intro S vk sig hunique c c' m m' hne hm hm' hverify
    by_contra hverify'
    rw [Bool.not_eq_false] at hverify'
    exact hdisjoint c c' m m' hne hm hm' (hunique m m' hverify hverify')

end RivetLink.Sdk
