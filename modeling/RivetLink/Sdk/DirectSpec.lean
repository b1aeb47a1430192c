import RivetLink.Sdk.DirectSession

/-!
# What the sides of the direct handshake guarantee

One specification per side, read off its code. `clientKeyReply_spec`, `hostKeyContinue_spec`,
`clientPasswordReply_spec` and `hostPasswordContinue_spec` say what a side has checked and what its
agreement consists of once it has derived a channel. `Agreement.Sound` is what all four have in
common.
-/

namespace RivetLink.Sdk

open RivetLink.Foundation RivetLink.Crypto

/-! ## Results -/

variable {α : Type}

theorem bind_eq_ok {ε β : Type} {x : Except ε α} {f : α → Except ε β} {b : β} :
    (x >>= f) = .ok b ↔ ∃ a, x = .ok a ∧ f a = .ok b := by
  cases x <;> simp [bind, Except.bind]

theorem liftCrypto_eq_ok {context : String} {x : CryptoResult α} {a : α} :
    liftCrypto context x = .ok a ↔ x = .ok a := by
  cases x <;> simp [liftCrypto]

theorem afterFirst_eq_ok {inbox : Inbox} {k : Wire → SdkResult α} {a : α} :
    afterFirst inbox k = some (.ok a) ↔ ∃ msg rest, inbox = .ok msg :: rest ∧ k msg = .ok a := by
  match inbox with
  | [] => simp [afterFirst]
  | .error e :: rest => simp [afterFirst]
  | .ok msg :: rest => simp [afterFirst]

section Spec

variable {P : Suite}

theorem encode_fixedBytes_inj (B : Base64) {n : Nat} {x y : FixedBytes n} (hn : n < 2 ^ 32)
    (h : B.encode x.bytes = B.encode y.bytes) : x = y := by
  have hx := decodeN_encode B x hn
  rw [h, decodeN_encode B y hn] at hx
  exact (Except.ok.inj hx).symm

theorem parseIdentity_eq_ok {b64 : Str} {key : FixedBytes 32}
    (h : parseIdentity P b64 = .ok key) : decodeN P.b64 32 b64 = .ok key := by
  obtain ⟨k, hk, hparse⟩ := bind_eq_ok.1 h
  split at hparse
  · exact Except.ok.inj hparse ▸ hk
  · simp at hparse

/-! ## ML-KEM -/

/-- The client's own hello passes the version check. -/
theorem requireVersion_start (pq : Option ClientPq) :
    requireVersion (ClientPq.version pq) (pq.map (·.encapsulationKey)) = .ok () := by
  rw [requireVersion_eq_ok]
  cases pq <;> simp [ClientPq.version]

variable {v : UInt16}

/-- A version that passes the check is determined by the presence of the ML-KEM field. -/
theorem version_eq_of_isSome {w : UInt16} {a b : Option Str} (ha : requireVersion v a = .ok ())
    (hb : requireVersion w b = .ok ()) (h : a.isSome = b.isSome) : v = w := by
  rcases requireVersion_eq_ok.1 ha with ⟨rfl, rfl⟩ | ⟨rfl, ha'⟩ <;>
    rcases requireVersion_eq_ok.1 hb with ⟨rfl, rfl⟩ | ⟨rfl, hb'⟩
  · rfl
  · rw [hb'] at h
    simp at h
  · rw [ha'] at h
    simp at h
  · rfl

/-- The client goes on only with a host that answered in its own version. -/
theorem ClientPq.finish_spec {pq : Option ClientPq} {ciphertext : Option Str}
    {secret : Option (FixedBytes 32)} (h : ClientPq.finish P pq v ciphertext = .ok secret) :
    requireVersion v ciphertext = .ok () ∧ ciphertext.isSome = pq.isSome ∧
      secret.isSome = pq.isSome := by
  obtain ⟨_, hversion, hrest⟩ := bind_eq_ok.1 h
  refine ⟨hversion, ?_⟩
  cases pq with
  | none =>
    cases ciphertext with
    | none =>
      obtain rfl := Except.ok.inj hrest
      exact ⟨rfl, rfl⟩
    | some c => simp at hrest
  | some pq =>
    cases ciphertext with
    | none => simp at hrest
    | some c =>
      obtain ⟨raw, -, hdec⟩ := bind_eq_ok.1 hrest
      split at hdec
      · obtain rfl := Except.ok.inj hdec
        exact ⟨rfl, rfl⟩
      · simp at hdec

/-- The host encapsulates exactly when the client sent a key. -/
theorem hostPq_isSome {key : Option Str} {coins : FixedBytes 32}
    {r : Option (Str × FixedBytes 32)} (h : hostPq P key coins = .ok r) :
    r.isSome = key.isSome := by
  unfold hostPq at h
  cases key with
  | none =>
    obtain rfl := Except.ok.inj h
    rfl
  | some key =>
    obtain ⟨raw, -, hrest⟩ := bind_eq_ok.1 h
    split at hrest
    · obtain rfl := Except.ok.inj hrest
      rfl
    · simp at hrest

/-! ## Agreements -/

/-- The ML-KEM fields match the version. -/
def Terms.Versioned : Terms → Prop
  | .kex v client host => VersionMatches v client.pq host.pq
  | .pake v _ _ clientPq hostPq => VersionMatches v clientPq hostPq

/-- Whether ML-KEM is used. -/
def Terms.usesPq : Terms → Bool
  | .kex _ client _ => client.pq.isSome
  | .pake _ _ _ clientPq _ => clientPq.isSome

/-- The channel is derived from the secrets and the terms, the terms are those of one version, and
an ML-KEM secret went in exactly when the terms say so. -/
structure Agreement.Sound (P : Suite) (a : Agreement) : Prop where
  derived : SealedChannel.fromHandshakeSecret P.kdf a.ikm a.terms.transcript a.role = .ok a.channel
  versioned : a.terms.Versioned
  pqSecret_isSome : a.pqSecret.isSome = a.terms.usesPq

/-- A version check carries over to a field that is present exactly when the other is. -/
theorem requireVersion_congr {a b : Option Str} (ha : requireVersion v a = .ok ())
    (h : b.isSome = a.isSome) : requireVersion v b = .ok () := by
  rw [requireVersion_eq_ok] at ha ⊢
  rcases ha with ⟨hv, rfl⟩ | ⟨hv, ha⟩
  · left
    exact ⟨hv, by simpa using h⟩
  · right
    exact ⟨hv, h.trans ha⟩

/-- The terms determine the transcript and the transcript the terms, also across the two modes. -/
theorem Terms.transcript_inj {t t' : Terms} (ht : t.Versioned) (ht' : t'.Versioned)
    (h : t.transcript = t'.transcript) : t = t' := by
  have hmodes : ∀ (v v' : UInt16) (r r' : Bytes),
      preamble v (literal "key") ++ r ≠ preamble v' (literal "pake") ++ r' := by
    intro v v' r r' heq
    simp only [preamble, List.append_assoc] at heq
    obtain ⟨-, hrest⟩ := List.append_inj (List.append_cancel_left heq) (by simp)
    have hkey : (literal "key").head? = some 0x6b := by decide
    have hpake : (literal "pake").head? = some 0x70 := by decide
    have hhead := congrArg List.head? hrest
    simp [List.head?_append, hkey, hpake] at hhead
  cases t with
  | kex v client host =>
    cases t' with
    | kex v' client' host' =>
      obtain ⟨rfl, rfl, rfl⟩ := kexTranscript_inj ht ht' h
      rfl
    | pake => exact absurd h (hmodes _ _ _ _)
  | pake v cm hm cp hp =>
    cases t' with
    | kex => exact absurd h.symm (hmodes _ _ _ _)
    | pake v' cm' hm' cp' hp' =>
      obtain ⟨rfl, rfl, rfl, rfl, rfl⟩ := pakeTranscript_inj ht ht' h
      rfl

/-! ## Key mode -/

variable {st : ClientKex} {coins : Coins} {hybrid : Bool} {identity : FixedBytes 32}

/-- What the client sends first. -/
theorem clientKeyHello_spec {pinnedHost : Option (FixedBytes 32)}
    (h : clientKeyHello P identity pinnedHost hybrid coins = .ok st) :
    pinnedHost = some st.pinnedHost ∧ st.version = ClientPq.version st.pq ∧
      st.client.pq = st.pq.map (·.encapsulationKey) ∧ st.client.id = publicKeyB64 P identity ∧
      st.kex.secret = coins.ephemeral ∧ st.kex.ephemeralPublic = P.dh.publicKey coins.ephemeral ∧
      ∃ binding, clientKexBinding P.b64 st.version st.client.id st.client.pq = .ok binding := by
  unfold clientKeyHello at h
  dsimp only at h
  obtain ⟨pinned, hpinned, hrest⟩ := bind_eq_ok.1 h
  obtain ⟨binding, hbinding, hst⟩ := bind_eq_ok.1 hrest
  obtain rfl := Except.ok.inj hst
  refine ⟨?_, rfl, rfl, rfl, rfl, rfl, binding, hbinding⟩
  cases pinnedHost with
  | none => simp [okOr] at hpinned
  | some key => exact congrArg some (Except.ok.inj hpinned)

variable {a : Agreement} {msg : Wire}

/-- A client that has derived a channel has checked the pinned key and the host's signature. -/
theorem clientKeyReply_spec (hversion : st.version = ClientPq.version st.pq)
    (hpq : st.client.pq = st.pq.map (·.encapsulationKey)) (h : clientKeyReply P st msg = .ok a) :
    a.Sound P ∧ a.role = .initiator ∧
    ∃ host hostEph sig binding, a.terms = .kex st.version st.client host ∧
      a.source = .ephemeral hostEph ∧ decodeN P.b64 32 host.id = .ok st.pinnedHost ∧
      decodeN P.b64 64 host.sig = .ok sig ∧
      hostKexBinding P.b64 st.version host.id (clientFieldsHash P.kdf.sha256 st.client) host.pq =
        .ok binding ∧
      P.signature.verify st.pinnedHost (signatureMessage binding hostEph) sig = true := by
  obtain ⟨⟨v, host⟩, -, h⟩ := bind_eq_ok.1 h
  obtain ⟨_, hrequire, h⟩ := bind_eq_ok.1 h
  obtain ⟨hostId, hid, h⟩ := bind_eq_ok.1 h
  have hkey := parseIdentity_eq_ok hid
  split at h
  · simp at h
  rename_i hpinned
  push Not at hpinned
  obtain ⟨hostEph, heph, h⟩ := bind_eq_ok.1 h
  obtain ⟨sig, hsig, h⟩ := bind_eq_ok.1 h
  obtain ⟨binding, hbinding, h⟩ := bind_eq_ok.1 h
  obtain ⟨_, hverify, h⟩ := bind_eq_ok.1 h
  obtain ⟨pqSecret, hfinish, h⟩ := bind_eq_ok.1 h
  obtain ⟨channel, hchannel, h⟩ := bind_eq_ok.1 h
  obtain rfl := Except.ok.inj h
  obtain ⟨hrequire', hct, hsecret⟩ := ClientPq.finish_spec hfinish
  have hown := requireVersion_start st.pq
  rw [← hpq, ← hversion] at hown
  have hsame : host.pq.isSome = st.client.pq.isSome := by
    rw [hpq, hct]
    simp
  have hv : v = st.version := version_eq_of_isSome hrequire' hown hsame
  subst hv
  refine ⟨⟨liftCrypto_eq_ok.1 hchannel, ⟨hown, hrequire'⟩, ?_⟩, rfl, host, hostEph, sig, binding,
    rfl, rfl, hpinned ▸ hkey, hsig, hbinding, ?_⟩
  · show pqSecret.isSome = st.client.pq.isSome
    rw [hsecret, hpq]
    simp
  · rw [hpinned]
    exact verifyPeer_eq_ok.1 (liftCrypto_eq_ok.1 hverify)

/-- A host that has derived a channel has checked the client's signature and asked whether to trust
its identity; the host's fields are its own. -/
theorem hostKeyContinue_spec {trust : Str → Bool} {client : KexFields}
    (h : hostKeyContinue P identity trust coins v client = .ok a) :
    a.Sound P ∧ a.role = .responder ∧ trust client.id = true ∧
    (∃ host clientEph, a.terms = .kex v client host ∧ a.source = .ephemeral clientEph ∧
      host.id = publicKeyB64 P identity ∧
      host.eph = P.b64.encode (P.dh.publicKey coins.ephemeral).bytes ∧
      ∃ clientId sig binding, decodeN P.b64 32 client.id = .ok clientId ∧
        decodeN P.b64 64 client.sig = .ok sig ∧
        clientKexBinding P.b64 v client.id client.pq = .ok binding ∧
        P.signature.verify clientId (signatureMessage binding clientEph) sig = true) := by
  obtain ⟨_, hrequire, h⟩ := bind_eq_ok.1 h
  obtain ⟨hk, hanswer, hagree⟩ := bind_eq_ok.1 h
  unfold hostKeyAnswer at hanswer
  obtain ⟨clientId, hid, h⟩ := bind_eq_ok.1 hanswer
  obtain ⟨clientEph, heph, h⟩ := bind_eq_ok.1 h
  obtain ⟨sig, hsig, h⟩ := bind_eq_ok.1 h
  obtain ⟨clientBinding, hclient, h⟩ := bind_eq_ok.1 h
  obtain ⟨_, hverify, h⟩ := bind_eq_ok.1 h
  split at h
  · simp at h
  rename_i htrust
  obtain ⟨pq, hpq, h⟩ := bind_eq_ok.1 h
  obtain ⟨binding, hbinding, h⟩ := bind_eq_ok.1 h
  obtain rfl := Except.ok.inj h
  obtain ⟨channel, hchannel, h⟩ := bind_eq_ok.1 hagree
  obtain rfl := Except.ok.inj h
  have hsome := hostPq_isSome hpq
  refine ⟨⟨liftCrypto_eq_ok.1 hchannel, ⟨hrequire, ?_⟩, ?_⟩, rfl, by simpa using htrust, _, _, rfl,
    rfl, rfl, rfl, clientId, sig, clientBinding, parseIdentity_eq_ok hid, hsig, hclient,
    verifyPeer_eq_ok.1 (liftCrypto_eq_ok.1 hverify)⟩
  · exact requireVersion_congr hrequire (by simpa using hsome)
  · show (pq.map (·.2)).isSome = client.pq.isSome
    simpa using hsome

/-! ## PIN mode -/

theorem pakeFinish_eq_ok {K : Kdf} {Q : Pake} {h : PakeHandshake} {peer : Bytes}
    {pq : Option (FixedBytes 32)} {transcript : Bytes} {role : ChannelRole} {ch : SealedChannel}
    {secret : FixedBytes 32} (hsecret : h.secret Q peer = .ok secret)
    (hfinish : h.finish K Q peer pq transcript role = .ok ch) :
    SealedChannel.fromHandshakeSecret K (inputKey pq secret) transcript role = .ok ch := by
  simpa only [PakeHandshake.finish, hsecret] using hfinish

variable {password : Str}

/-- A PIN-mode client that has derived a channel: its terms hold its own message and key, and what
the host's frame said. -/
theorem clientPasswordReply_spec
    (h : clientPasswordReply P (clientPasswordHello P password hybrid coins) msg = .ok a) :
    a.Sound P ∧ a.role = .initiator ∧ a.source = .password password.asBytes.bytes ∧
    ∃ (v : UInt16) (text : Str) (clientPq hostPq : Option Str) (peer : Buffer),
      msg = .pake v text hostPq ∧ decode P.b64 text = .ok peer ∧
      a.terms = .pake v (P.pake.message password.asBytes.bytes coins.pake) peer clientPq hostPq ∧
      (clientPasswordHello P password hybrid coins).wire P =
        .pake v (P.b64.encode (P.pake.message password.asBytes.bytes coins.pake).bytes)
          clientPq := by
  cases msg with
  | pake v text hostPq =>
    obtain ⟨pqSecret, hfinish, h⟩ := bind_eq_ok.1 h
    obtain ⟨peer, hpeer, h⟩ := bind_eq_ok.1 h
    obtain ⟨secret, hsecret, h⟩ := bind_eq_ok.1 h
    obtain ⟨channel, hchannel, h⟩ := bind_eq_ok.1 h
    obtain rfl := Except.ok.inj h
    obtain ⟨hrequire, hct, hsome⟩ := ClientPq.finish_spec hfinish
    have hown := requireVersion_start (ClientPq.start P hybrid coins.kemSeed)
    have hv : v = ClientPq.version (ClientPq.start P hybrid coins.kemSeed) :=
      version_eq_of_isSome hrequire hown (by rw [hct]; simp [clientPasswordHello])
    subst hv
    refine ⟨⟨pakeFinish_eq_ok (liftCrypto_eq_ok.1 hsecret) (liftCrypto_eq_ok.1 hchannel),
      ⟨hown, hrequire⟩, ?_⟩, rfl, rfl, _, text, _, hostPq, peer, rfl, hpeer, rfl, rfl⟩
    show pqSecret.isSome = ((ClientPq.start P hybrid coins.kemSeed).map _).isSome
    rw [hsome]
    simp [clientPasswordHello]
  | kex v fields | confirm token | reject reason => simp [clientPasswordReply] at h

/-- A PIN-mode host that has derived a channel: its terms hold its own message and ciphertext, and
what the client's frame said. -/
theorem hostPasswordContinue_spec {text : Str} {clientPq : Option Str}
    (h : hostPasswordContinue P password coins v text clientPq = .ok a) :
    a.Sound P ∧ a.role = .responder ∧ a.source = .password password.asBytes.bytes ∧
    ∃ (hostPq : Option Str) (peer : Buffer) (hp : HostPake), decode P.b64 text = .ok peer ∧
      a.terms = .pake v peer (P.pake.message password.asBytes.bytes coins.pake) clientPq hostPq ∧
      hostPasswordAnswer P password v text clientPq coins = .ok hp ∧
      hp.wire P = .pake v (P.b64.encode (P.pake.message password.asBytes.bytes coins.pake).bytes)
        hostPq := by
  obtain ⟨_, hrequire, h⟩ := bind_eq_ok.1 h
  obtain ⟨hp, hanswer, hagree⟩ := bind_eq_ok.1 h
  have hanswer' := hanswer
  unfold hostPasswordAnswer at hanswer'
  obtain ⟨peer, hpeer, h⟩ := bind_eq_ok.1 hanswer'
  obtain ⟨pq, hpq, h⟩ := bind_eq_ok.1 h
  obtain rfl := Except.ok.inj h
  obtain ⟨secret, hsecret, h⟩ := bind_eq_ok.1 hagree
  obtain ⟨channel, hchannel, h⟩ := bind_eq_ok.1 h
  obtain rfl := Except.ok.inj h
  have hsome := hostPq_isSome hpq
  refine ⟨⟨pakeFinish_eq_ok (liftCrypto_eq_ok.1 hsecret) (liftCrypto_eq_ok.1 hchannel),
    ⟨hrequire, ?_⟩, ?_⟩, rfl, rfl, _, peer, _, hpeer, rfl, hanswer, rfl⟩
  · exact requireVersion_congr hrequire (by simpa using hsome)
  · show (pq.map (·.2)).isSome = clientPq.isSome
    simpa using hsome

end Spec

end RivetLink.Sdk
