import RivetLink.Foundation.Text

/-!
# Transcripts and bindings of the direct handshake

The direct handshake puts its fields into four byte strings: `kexTranscript` and `pakeTranscript`,
which are hashed into the channel keys, and `clientKexBinding` and `hostKexBinding`, which are
signed. A fifth one is hashed by `clientFieldsHash`; its input before hashing is `clientFields`.

Every one of them consists of the domain, the version, a tag and fields behind their lengths. The
facts below say how far each determines its fields. The transcripts determine all of them, provided
the ML-KEM fields are consistent with the version (`VersionMatches`): without that, a lone client
field and a lone host field look the same. The bindings determine the version, the ML-KEM field and
the decoded identity key, but not the base64 text of the identity, because `decodeN` trims it.
-/

namespace RivetLink.Sdk

open List RivetLink.Foundation

inductive SdkError where
  | config (message : String)
  | identity (message : String)
  | http (message : String)
  | notAuthenticated
  | auth (message : String)
  | relay (message : String)
  | lan (message : String)
  | webSocket (message : String)
  | sessionRejected (message : String)
  | crypto (message : String)
  | discovery (message : String)
  | io (message : String)
  | serde (message : String)
  | base64 (message : String)
  deriving DecidableEq, Repr

abbrev SdkResult (α : Type) := Except SdkError α

def classicVersion : UInt16 := 2
/-- Handshake with ML-KEM. -/
def hybridVersion : UInt16 := 3
def directDomain : Bytes := literal "rivetlink-direct-v2"

/-- Decode base64 with white space around it. -/
def decode (B : Base64) (b64 : Str) : SdkResult Buffer :=
  match B.decode b64.trim with
  | .ok raw => .ok raw
  | .error e => .error (.base64 e)

/-- Decode base64 to an array of a fixed size. -/
def decodeN (B : Base64) (n : Nat) (b64 : Str) : SdkResult (FixedBytes n) :=
  match decode B b64 with
  | .ok raw =>
    if h : raw.bytes.length = n then .ok ⟨raw.bytes, h⟩
    else .error (.crypto ("expected " ++ toString n ++ " bytes"))
  | .error e => .error e

theorem decode_encode_buffer (B : Base64) {b : Buffer} (h : b.bytes.length < 2 ^ 32) :
    decode B (B.encode b.bytes) = .ok b := by
  obtain ⟨v, hv, hbytes⟩ := B.decode_encode b.bytes h
  simp only [decode, B.trim_encode, hv, Except.ok.injEq]
  exact Buffer.ext hbytes

/-- Decoding inverts encoding, also for arrays of a fixed size. -/
theorem decodeN_encode (B : Base64) {n : Nat} (x : FixedBytes n) (hn : n < 2 ^ 32) :
    decodeN B n (B.encode x.bytes) = .ok x := by
  obtain ⟨v, hv, hbytes⟩ := B.decode_encode x.bytes (by rw [x.size_eq]; exact hn)
  have hlen : v.bytes.length = n := by rw [hbytes, x.size_eq]
  have hdecode : decode B (B.encode x.bytes) = .ok v := by
    simp only [decode, B.trim_encode, hv]
  simp only [decodeN, hdecode, hlen, dite_true, Except.ok.injEq]
  exact FixedBytes.ext hbytes

/-- A peer's message must be of version 2 without ML-KEM data or of version 3 with it. -/
def requireVersion (version : UInt16) (pq : Option Str) : SdkResult Unit :=
  if (version = classicVersion ∧ pq = none) ∨ (version = hybridVersion ∧ pq.isSome) then .ok ()
  else .error (.crypto "unsupported direct-LAN protocol version")

/-- The ML-KEM fields of a transcript, in order. -/
def pqFields (clientPq hostPq : Option Str) : List Buffer :=
  (clientPq.toList ++ hostPq.toList).map Str.asBytes

/-- One side's key-exchange fields, as sent on the wire. -/
@[ext] structure KexFields where
  eph : Str
  id : Str
  sig : Str
  pq : Option Str
  deriving DecidableEq

/-- The domain, the version and a tag, at the start of every string. -/
def preamble (version : UInt16) (tag : Bytes) : Bytes :=
  directDomain ++ beBytes 2 version.toNat ++ tag

/-- What `clientFieldsHash` hashes: the client's fields, which the host's signature covers. -/
def clientFields (client : KexFields) : Bytes :=
  directDomain ++ encodeFields
    ([client.eph.asBytes, client.id.asBytes, client.sig.asBytes] ++
      client.pq.toList.map Str.asBytes)

def clientFieldsHash (sha256 : Bytes → FixedBytes 32) (client : KexFields) : FixedBytes 32 :=
  sha256 (clientFields client)

def pakeTranscript (version : UInt16) (clientMessage hostMessage : Buffer)
    (clientPq hostPq : Option Str) : Bytes :=
  preamble version (literal "pake") ++
    encodeFields ([clientMessage, hostMessage] ++ pqFields clientPq hostPq)

def kexTranscript (version : UInt16) (client host : KexFields) : Bytes :=
  preamble version (literal "key") ++
    encodeFields ([client.eph.asBytes, client.id.asBytes, client.sig.asBytes,
      host.eph.asBytes, host.id.asBytes, host.sig.asBytes] ++ pqFields client.pq host.pq)

def clientKexBinding (B : Base64) (version : UInt16) (clientIdentityB64 : Str)
    (clientPq : Option Str) : SdkResult Bytes :=
  match decodeN B 32 clientIdentityB64 with
  | .ok key =>
    .ok (preamble version (literal "client-kex") ++
      encodeFields (key.toBuffer FixedBytes.thirtyTwo_lt :: clientPq.toList.map Str.asBytes))
  | .error e => .error e

def hostKexBinding (B : Base64) (version : UInt16) (hostIdentityB64 : Str)
    (clientFieldsHash : FixedBytes 32) (hostPq : Option Str) : SdkResult Bytes :=
  match decodeN B 32 hostIdentityB64 with
  | .ok key =>
    .ok (preamble version (literal "host-kex") ++
      encodeFields (key.toBuffer FixedBytes.thirtyTwo_lt ::
        clientFieldsHash.toBuffer FixedBytes.thirtyTwo_lt :: hostPq.toList.map Str.asBytes))
  | .error e => .error e

/-! ## What the strings determine -/

variable {v version : UInt16} {pq : Option Str} {b : Bytes} {id : Str} {B : Base64}

/-- Strings with one tag determine the version and what follows the tag. -/
theorem preamble_append_inj {v' : UInt16} {tag r r' : Bytes}
    (h : preamble v tag ++ r = preamble v' tag ++ r') : v = v' ∧ r = r' := by
  unfold preamble at h
  obtain ⟨hhead, hrest⟩ := append_inj h (by simp)
  obtain ⟨hversion, -⟩ := append_inj hhead (by simp)
  exact ⟨beBytes_uint16_inj (append_cancel_left hversion), hrest⟩

theorem map_asBytes_inj {a b : List Str} (h : a.map Str.asBytes = b.map Str.asBytes) : a = b :=
  map_injective_iff.2 (fun _ _ => Str.asBytes_inj) h

theorem toList_inj {α : Type} {a b : Option α} (h : a.toList = b.toList) : a = b := by
  cases a <;> cases b <;> simp_all

theorem toBuffer_inj {n : Nat} {a b : FixedBytes n} {h : n < 2 ^ 63}
    (heq : a.toBuffer h = b.toBuffer h) : a = b :=
  FixedBytes.ext (congrArg Buffer.bytes heq)

/-- A message passes the version check with an ML-KEM field exactly when it is of version 3. -/
theorem requireVersion_eq_ok :
    requireVersion version pq = .ok () ↔
      (version = classicVersion ∧ pq = none) ∨ (version = hybridVersion ∧ pq.isSome) := by
  unfold requireVersion
  split <;> simp_all

/-- Both ML-KEM fields pass the version check. -/
def VersionMatches (version : UInt16) (clientPq hostPq : Option Str) : Prop :=
  requireVersion version clientPq = .ok () ∧ requireVersion version hostPq = .ok ()

instance (version : UInt16) (clientPq hostPq : Option Str) :
    Decidable (VersionMatches version clientPq hostPq) := by
  unfold VersionMatches
  infer_instance

/-- Fields that match the version are present on both sides or on neither. -/
theorem VersionMatches.isSome_eq {a b : Option Str} (h : VersionMatches version a b) :
    a.isSome = b.isSome := by
  have hne : classicVersion ≠ hybridVersion := by decide
  rcases requireVersion_eq_ok.1 h.1 with ⟨hv, rfl⟩ | ⟨hv, ha⟩ <;>
    rcases requireVersion_eq_ok.1 h.2 with ⟨hv', rfl⟩ | ⟨hv', hb⟩
  · rfl
  · exact absurd (hv.symm.trans hv') hne
  · exact absurd (hv'.symm.trans hv) hne
  · rw [ha, hb]

theorem pqFields_inj {a b a' b' : Option Str} (hab : a.isSome = b.isSome)
    (hab' : a'.isSome = b'.isSome) (h : pqFields a b = pqFields a' b') : a = a' ∧ b = b' := by
  have hlist := map_asBytes_inj h
  cases a <;> cases b <;> cases a' <;> cases b' <;> simp_all

/-- The key-mode transcript determines the version and all fields of both sides. -/
theorem kexTranscript_inj {v' : UInt16} {client host client' host' : KexFields}
    (hv : VersionMatches v client.pq host.pq) (hv' : VersionMatches v' client'.pq host'.pq)
    (h : kexTranscript v client host = kexTranscript v' client' host') :
    v = v' ∧ client = client' ∧ host = host' := by
  obtain ⟨hversion, hrest⟩ := preamble_append_inj h
  have hfields := encodeFields_inj hrest
  simp only [cons_append, nil_append, List.cons.injEq] at hfields
  obtain ⟨h1, h2, h3, h4, h5, h6, hpq⟩ := hfields
  obtain ⟨hc, hh⟩ := pqFields_inj hv.isSome_eq hv'.isSome_eq hpq
  refine ⟨hversion, KexFields.ext ?_ ?_ ?_ hc, KexFields.ext ?_ ?_ ?_ hh⟩
  · exact Str.asBytes_inj h1
  · exact Str.asBytes_inj h2
  · exact Str.asBytes_inj h3
  · exact Str.asBytes_inj h4
  · exact Str.asBytes_inj h5
  · exact Str.asBytes_inj h6

/-- The PIN-mode transcript determines the version, both messages and both ML-KEM fields. -/
theorem pakeTranscript_inj {v' : UInt16} {cm hm cm' hm' : Buffer} {cp hp cp' hp' : Option Str}
    (hv : VersionMatches v cp hp) (hv' : VersionMatches v' cp' hp')
    (h : pakeTranscript v cm hm cp hp = pakeTranscript v' cm' hm' cp' hp') :
    v = v' ∧ cm = cm' ∧ hm = hm' ∧ cp = cp' ∧ hp = hp' := by
  obtain ⟨hversion, hrest⟩ := preamble_append_inj h
  have hfields := encodeFields_inj hrest
  simp only [cons_append, nil_append, List.cons.injEq] at hfields
  obtain ⟨hc, hh, hpq⟩ := hfields
  obtain ⟨hcp, hhp⟩ := pqFields_inj hv.isSome_eq hv'.isSome_eq hpq
  exact ⟨hversion, hc, hh, hcp, hhp⟩

theorem clientKexBinding_eq_ok :
    clientKexBinding B v id pq = .ok b ↔
      ∃ key, decodeN B 32 id = .ok key ∧ b = preamble v (literal "client-kex") ++
        encodeFields (key.toBuffer FixedBytes.thirtyTwo_lt :: pq.toList.map Str.asBytes) := by
  unfold clientKexBinding
  cases hkey : decodeN B 32 id <;> simp [eq_comm]

theorem hostKexBinding_eq_ok {hash : FixedBytes 32} :
    hostKexBinding B v id hash pq = .ok b ↔
      ∃ key, decodeN B 32 id = .ok key ∧ b = preamble v (literal "host-kex") ++
        encodeFields (key.toBuffer FixedBytes.thirtyTwo_lt ::
          hash.toBuffer FixedBytes.thirtyTwo_lt ::
          pq.toList.map Str.asBytes) := by
  unfold hostKexBinding
  cases hkey : decodeN B 32 id <;> simp [eq_comm]

/-- The client's binding determines the version, the identity key and the ML-KEM field. -/
theorem clientKexBinding_inj {v' : UInt16} {id' : Str} {pq' : Option Str}
    (h : clientKexBinding B v id pq = .ok b) (h' : clientKexBinding B v' id' pq' = .ok b) :
    v = v' ∧ decodeN B 32 id = decodeN B 32 id' ∧ pq = pq' := by
  obtain ⟨key, hkey, rfl⟩ := clientKexBinding_eq_ok.1 h
  obtain ⟨key', hkey', heq⟩ := clientKexBinding_eq_ok.1 h'
  obtain ⟨hversion, hrest⟩ := preamble_append_inj heq
  obtain ⟨hk, hpq⟩ := List.cons.inj (encodeFields_inj hrest)
  refine ⟨hversion, ?_, toList_inj (map_asBytes_inj hpq)⟩
  rw [hkey, hkey', toBuffer_inj hk]

/-- The host's binding determines the version, the identity key, the hash of the client's fields
and the ML-KEM field. -/
theorem hostKexBinding_inj {v' : UInt16} {id' : Str} {hash hash' : FixedBytes 32} {pq' : Option Str}
    (h : hostKexBinding B v id hash pq = .ok b) (h' : hostKexBinding B v' id' hash' pq' = .ok b) :
    v = v' ∧ decodeN B 32 id = decodeN B 32 id' ∧ hash = hash' ∧ pq = pq' := by
  obtain ⟨key, hkey, rfl⟩ := hostKexBinding_eq_ok.1 h
  obtain ⟨key', hkey', heq⟩ := hostKexBinding_eq_ok.1 h'
  obtain ⟨hversion, hrest⟩ := preamble_append_inj heq
  obtain ⟨hk, htail⟩ := List.cons.inj (encodeFields_inj hrest)
  obtain ⟨hhash, hpq⟩ := List.cons.inj htail
  refine ⟨hversion, ?_, toBuffer_inj hhash, toList_inj (map_asBytes_inj hpq)⟩
  rw [hkey, hkey', toBuffer_inj hk]

end RivetLink.Sdk
