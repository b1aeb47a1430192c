import RivetLink.Sdk.DirectWorld

/-!
# Agreement of the direct handshake

The two results about worlds in which the primitives are ideal.

* `key_mode_agreement`: a client that returns a channel against an honest pinned host key has one
  and only one host run as its partner; that run belongs to the pinned key and processed exactly the
  hello the client sent. A host that returns a channel for an identity has asked whether to trust
  it, and if the identity is honest, a client run of its holder derived the same channel from the
  same terms.
* `pin_mode_agreement`: a run that returns a channel in PIN mode, under a password the attacker does
  not know, has a partner with the same password and the same terms, whose frame is the one it
  accepted; in particular it never accepts its own.
-/

namespace RivetLink.Sdk

open List Option RivetLink.Foundation RivetLink.Crypto

/-- Two ends of one session: what one sends the other receives. -/
def Matches (ch ch' : SealedChannel) : Prop :=
  ch.sendKey = ch'.recvKey ∧ ch.recvKey = ch'.sendKey ∧ ch.bindingHash = ch'.bindingHash

section Partner

variable {P : Suite} {honest : List (FixedBytes 32)} {known : List Bytes} {w : World P}
  {s s' : Session} {a a' : Agreement} {identity : FixedBytes 32} {client : KexFields} {v : UInt16}

theorem World.mem_agreements (hs : s ∈ w.sessions) (ha : s.agreed? P = some a) :
    a ∈ w.agreements :=
  mem_filterMap.2 ⟨s, hs, ha⟩

/-- Agreements with the same secret and transcript in opposite roles have matching channels. -/
theorem Agreement.Sound.matches (h : a.Sound P) (h' : a'.Sound P) (hikm : a'.ikm = a.ikm)
    (hterms : a'.terms = a.terms) (hrole : a'.role = a.role.peer) :
    Matches a.channel a'.channel := by
  obtain ⟨hsend, hrecv, hhash, -, -⟩ := SealedChannel.fromHandshakeSecret_eq_ok.1 h.derived
  obtain ⟨hsend', hrecv', hhash', -, -⟩ := SealedChannel.fromHandshakeSecret_eq_ok.1 h'.derived
  rw [hikm, hterms, hrole] at hsend' hrecv'
  rw [ChannelRole.peer_peer] at hrecv'
  refine ⟨some.inj (hsend.symm.trans hrecv'), some.inj (hrecv.symm.trans hsend'), ?_⟩
  rw [hhash, hhash', hterms]

/-- Agreements in the world that share a key have the same secret and terms. -/
theorem World.Ideal.same_of_key (hideal : w.Ideal honest known) (hs : s ∈ w.sessions)
    (hs' : s' ∈ w.sessions) (ha : s.agreed? P = some a) (ha' : s'.agreed? P = some a')
    (hkey : a'.channel.sendKey = a.channel.recvKey) :
    a'.ikm = a.ikm ∧ a'.terms = a.terms ∧ a'.role = a.role.peer := by
  have hsound := Session.sound_of_agreed ha
  have hsound' := Session.sound_of_agreed ha'
  obtain ⟨-, hrecv, -⟩ := SealedChannel.fromHandshakeSecret_eq_ok.1 hsound.derived
  obtain ⟨hsend', -⟩ := SealedChannel.fromHandshakeSecret_eq_ok.1 hsound'.derived
  obtain ⟨hikm, htranscript, hrole⟩ := hideal.derivation a' (World.mem_agreements hs' ha') a
    (World.mem_agreements hs ha) a'.role a.role.peer (by rw [hsend', hrecv, hkey])
  exact ⟨hikm, Terms.transcript_inj hsound'.versioned hsound.versioned htranscript, hrole⟩

/-- A run that has accepted a confirmation over a protected channel has a partner. -/
theorem World.Ideal.partner (hideal : w.Ideal honest known) (hs : s ∈ w.sessions)
    (ha : s.agreed? P = some a) (hacc : s.Accepted P a)
    (hprot : a.Protected w.ephemerals known) :
    ∃ s' ∈ w.sessions, ∃ a', s'.agreed? P = some a' ∧ a'.ikm = a.ikm ∧ a'.terms = a.terms ∧
      a'.role = a.role.peer ∧ Matches a.channel a'.channel := by
  obtain ⟨ciphertext, hraw, hdec⟩ := hacc
  have hauth := hideal.authentic s hs a ha _ hraw
  rw [← length_header 0, drop_left, take_left, Session.nextRecv_of_agreed ha] at hauth
  obtain ⟨p, hp, hkey, hnonce, -, -, -⟩ := hauth.exists_performed hdec
  rcases mem_append.1 hp with htoken | helsewhere
  · obtain ⟨s', hs', htoken⟩ := mem_filterMap.1 htoken
    obtain ⟨a', ha', hsend⟩ := Session.token_key htoken
    obtain ⟨hikm, hterms, hrole⟩ :=
      hideal.same_of_key hs hs' ha ha' (hsend.symm.trans hkey)
    exact ⟨s', hs', a', ha', hikm, hterms, hrole,
      (Session.sound_of_agreed ha).matches (Session.sound_of_agreed ha') hikm hterms hrole⟩
  · exact absurd hkey (hideal.secret p helsewhere hnonce a (World.mem_agreements hs ha) hprot)

theorem OtherSigning.signed (B : Base64) (o : OtherSigning) :
    ∃ c, Signed B c o.message ∧ c ≠ .directClient ∧ c ≠ .directHost := by
  cases o with
  | relayClient sessionId identity eph =>
    exact ⟨_, .relayClient sessionId identity eph, by decide, by decide⟩
  | relayHost sessionId identity eph =>
    exact ⟨_, .relayHost sessionId identity eph, by decide, by decide⟩
  | deviceChallenge deviceId nonce =>
    exact ⟨_, .deviceChallenge deviceId nonce, by decide, by decide⟩
  | lanIdentity publicKey => exact ⟨_, .lanIdentity publicKey, by decide, by decide⟩

/-- An ephemeral key under a signature of the direct handshake that was made belongs to a run. -/
theorem World.mem_ephemerals_of_signed {key eph : FixedBytes 32} {binding : Bytes}
    {context : SigningContext} (hcontext : context = .directClient ∨ context = .directHost)
    (hmessage : Signed P.b64 context (signatureMessage binding eph))
    (h : (key, signatureMessage binding eph) ∈ w.signed) : eph ∈ w.ephemerals := by
  rcases mem_append.1 h with hrun | helsewhere
  · obtain ⟨s', hs', hsigned⟩ := mem_filterMap.1 hrun
    obtain ⟨binding', hmsg⟩ := Session.signed_ephemeral hsigned
    have heph := (append_inj' (signatureMessage_tail hmsg)
      (by rw [eph.size_eq, FixedBytes.size_eq])).2
    exact mem_map.2 ⟨s', hs', (FixedBytes.ext heph).symm⟩
  · obtain ⟨⟨key', o⟩, -, ho⟩ := mem_map.1 helsewhere
    obtain ⟨c, hc, hclient, hhost⟩ := OtherSigning.signed P.b64 o
    rw [(Prod.mk.inj ho).2] at hc
    have hsame := signed_context_unique hc hmessage
    rcases hcontext with rfl | rfl
    · exact absurd hsame hclient
    · exact absurd hsame hhost

/-- The channel of a client that has checked an honest host's signature is protected. -/
theorem World.Ideal.client_protected (hideal : w.Ideal honest known) (hs : s ∈ w.sessions)
    {pinnedHost : Option (FixedBytes 32)} {hybrid : Bool} {st : ClientKex} {msg : Wire}
    (ha : s.agreed? P = some a)
    (hhello : clientKeyHello P identity pinnedHost hybrid s.coins = .ok st)
    (hreply : clientKeyReply P st msg = .ok a) (hhonest : st.pinnedHost ∈ honest) :
    a.Protected w.ephemerals known := by
  obtain ⟨-, hversion, hpq, -⟩ := clientKeyHello_spec hhello
  obtain ⟨-, hrole, host, hostEph, sig, binding, hterms, hsource, hid, hsig, hbinding, hverify⟩ :=
    clientKeyReply_spec hversion hpq hreply
  have hchecked : s.checked P =
      some ⟨st.pinnedHost, signatureMessage binding hostEph, sig⟩ := by
    simp [Session.checked, ha, hrole, hterms, hsource, hid, hsig, hbinding, Except.toOption]
  have hmade := hideal.unforgeable s hs _ hchecked hhonest hverify
  simp only [Agreement.Protected, hsource]
  exact World.mem_ephemerals_of_signed (.inr rfl) (.directHost hostEph hbinding) hmade

/-- The channel of a host that has checked an honest client's signature is protected. -/
theorem World.Ideal.host_protected (hideal : w.Ideal honest known) (hs : s ∈ w.sessions)
    {trust : Str → Bool} {key : FixedBytes 32} (ha : s.agreed? P = some a)
    (hcontinue : hostKeyContinue P identity trust s.coins v client = .ok a)
    (hkey : decodeN P.b64 32 client.id = .ok key) (hhonest : key ∈ honest) :
    a.Protected w.ephemerals known := by
  obtain ⟨-, hrole, -, host, clientEph, hterms, hsource, -, -, clientId, sig, binding, hid, hsig,
    hbinding, hverify⟩ := hostKeyContinue_spec hcontinue
  obtain rfl : clientId = key := Except.ok.inj (hid.symm.trans hkey)
  have hchecked : s.checked P =
      some ⟨clientId, signatureMessage binding clientEph, sig⟩ := by
    simp [Session.checked, ha, hrole, hterms, hsource, hid, hsig, hbinding, Except.toOption]
  have hmade := hideal.unforgeable s hs _ hchecked hhonest hverify
  simp only [Agreement.Protected, hsource]
  exact World.mem_ephemerals_of_signed (.inl rfl) (.directClient clientEph hbinding) hmade

/-! ## Sides in key mode -/

/-- A run with key-mode terms in the role of the host. -/
theorem Session.host_of_terms {host : KexFields} (ha : s.agreed? P = some a)
    (hterms : a.terms = .kex v client host) (hrole : a.role = .responder) :
    ∃ identity trust rest, s.config.host = some (identity, trust) ∧
      s.inbox = .ok (.kex v client) :: rest ∧
      hostKeyContinue P identity trust s.coins v client = .ok a ∧
      host.id = publicKeyB64 P identity ∧
      host.eph = P.b64.encode (P.dh.publicKey s.coins.ephemeral).bytes := by
  cases Session.ran_of_agreed ha with
  | clientKey _ _ _ _ _ _ _ _ hhello hreply =>
    obtain ⟨-, hversion, hpq, -⟩ := clientKeyHello_spec hhello
    rw [(clientKeyReply_spec hversion hpq hreply).2.1] at hrole
    cases hrole
  | clientPassword _ _ _ _ _ _ hreply =>
    rw [(clientPasswordReply_spec hreply).2.1] at hrole
    cases hrole
  | hostKey identity trust v' client' rest hconfig hinbox hcontinue =>
    obtain ⟨-, -, -, host', _, hterms', -, hid, heph, -⟩ := hostKeyContinue_spec hcontinue
    rw [hterms] at hterms'
    obtain ⟨rfl, rfl, rfl⟩ := Terms.kex.inj hterms'
    exact ⟨identity, trust, rest, hconfig, hinbox, hcontinue, hid, heph⟩
  | hostPassword _ _ _ _ _ _ _ hcontinue =>
    obtain ⟨-, -, -, _, _, _, -, hterms', -⟩ := hostPasswordContinue_spec hcontinue
    rw [hterms] at hterms'
    cases hterms'

/-- A run with key-mode terms in the role of the client. -/
theorem Session.client_of_terms {host : KexFields} (ha : s.agreed? P = some a)
    (hterms : a.terms = .kex v client host) (hrole : a.role = .initiator) :
    ∃ identity pinnedHost hybrid st, s.config = .clientKey identity pinnedHost hybrid ∧
      clientKeyHello P identity pinnedHost hybrid s.coins = .ok st ∧
      st.version = v ∧ st.client = client ∧ client.id = publicKeyB64 P identity := by
  cases Session.ran_of_agreed ha with
  | clientKey identity pinnedHost hybrid st _ _ hconfig _ hhello hreply =>
    obtain ⟨-, hversion, hpq, hid, -⟩ := clientKeyHello_spec hhello
    obtain ⟨-, -, host', _, _, _, hterms', -⟩ := clientKeyReply_spec hversion hpq hreply
    rw [hterms] at hterms'
    obtain ⟨rfl, rfl, rfl⟩ := Terms.kex.inj hterms'
    exact ⟨identity, pinnedHost, hybrid, st, hconfig, hhello, rfl, rfl, hid⟩
  | clientPassword _ _ _ _ _ _ hreply =>
    obtain ⟨-, -, -, _, _, _, _, _, -, -, hterms', -⟩ := clientPasswordReply_spec hreply
    rw [hterms] at hterms'
    cases hterms'
  | hostKey _ _ _ _ _ _ _ hcontinue =>
    rw [(hostKeyContinue_spec hcontinue).2.1] at hrole
    cases hrole
  | hostPassword _ _ _ _ _ _ _ hcontinue =>
    rw [(hostPasswordContinue_spec hcontinue).2.1] at hrole
    cases hrole

/-- The key in the base64 text of an identity is the identity's key. -/
theorem decodeN_publicKeyB64 (identity : FixedBytes 32) :
    decodeN P.b64 32 (publicKeyB64 P identity) = .ok (P.signature.verifyingKey identity) :=
  decodeN_encode P.b64 _ (by decide)

/-- Two runs with the same ephemeral key are the same run. -/
theorem World.Ideal.index_eq (hideal : w.Ideal honest known) {i j : Nat}
    (hi : w.sessions[i]? = some s) (hj : w.sessions[j]? = some s')
    (heph : P.dh.publicKey s.coins.ephemeral = P.dh.publicKey s'.coins.ephemeral) : i = j := by
  obtain ⟨hilt, rfl⟩ := List.getElem?_eq_some_iff.1 hi
  obtain ⟨hjlt, rfl⟩ := List.getElem?_eq_some_iff.1 hj
  have hpair := pairwise_iff_getElem.1 hideal.ephemerals_differ
  rcases Nat.lt_trichotomy i j with hlt | heq | hlt
  · exact absurd heph (hpair i j hilt hjlt hlt)
  · exact heq
  · exact absurd heph.symm (hpair j i hjlt hilt hlt)

theorem Matches.of_sameKeys {ch ch' ch'' : SealedChannel} (h : SameKeys ch ch') :
    Matches ch ch'' ↔ Matches ch' ch'' := by
  obtain ⟨h1, h2, h3⟩ := h
  simp only [Matches, h1, h2, h3]

/-- Agreement in key mode.

If a client run against an honest pinned host key returns a channel, there is exactly one run whose
channel matches: a run of a host with that key, whose first message is the hello the client sent,
with the same version and fields, and with ML-KEM in use on both sides or on neither.

If a host run returns a channel for a client identity, its trust check of that identity said yes;
and if the key of the identity is honest, a client run with that key derived the matching channel
from the same terms. -/
theorem key_mode_agreement (hideal : w.Ideal honest known) :
    (∀ (i : Nat) (c : Session) (identity host : FixedBytes 32) (hybrid : Bool)
      (ch : SealedChannel) (id : Option Str), w.sessions[i]? = some c →
      c.config = .clientKey identity (some host) hybrid → host ∈ honest →
      c.result P = some (.ok (ch, id)) →
      ∃ (st : ClientKex) (a : Agreement) (j : Nat) (h : Session) (hostIdentity : FixedBytes 32)
        (trust : Str → Bool) (rest : Inbox) (a' : Agreement),
        clientKeyHello P identity (some host) hybrid c.coins = .ok st ∧ c.agreed? P = some a ∧
        w.sessions[j]? = some h ∧ h.config.host = some (hostIdentity, trust) ∧
        P.signature.verifyingKey hostIdentity = host ∧
        h.inbox = .ok (.kex st.version st.client) :: rest ∧
        h.agreed? P = some a' ∧ a'.terms = a.terms ∧
        a'.pqSecret.isSome = a.pqSecret.isSome ∧ Matches ch a'.channel ∧
        ∀ (j' : Nat) (h' : Session) (a'' : Agreement), w.sessions[j']? = some h' →
          h'.agreed? P = some a'' → Matches ch a''.channel → j' = j) ∧
    (∀ (i : Nat) (h : Session) (hostIdentity : FixedBytes 32) (trust : Str → Bool)
      (ch : SealedChannel) (id : Str), w.sessions[i]? = some h →
      h.config.host = some (hostIdentity, trust) → h.result P = some (.ok (ch, some id)) →
      trust id = true ∧
      ∀ key, decodeN P.b64 32 id = .ok key → key ∈ honest →
        ∃ (a : Agreement) (j : Nat) (c : Session) (identity : FixedBytes 32)
          (pinnedHost : Option (FixedBytes 32)) (hybrid : Bool) (a' : Agreement),
          h.agreed? P = some a ∧ w.sessions[j]? = some c ∧
          c.config = .clientKey identity pinnedHost hybrid ∧
          P.signature.verifyingKey identity = key ∧ c.agreed? P = some a' ∧
          a'.terms = a.terms ∧ Matches ch a'.channel) := by
  constructor
  · intro i c identity host hybrid ch id hi hconfig hhonest hresult
    have hc := mem_of_getElem? hi
    obtain ⟨a, ha, hacc, hsame, -⟩ := Session.result_eq_ok hresult
    cases Session.ran_of_agreed ha with
    | clientPassword _ _ _ _ hc' => simp [hconfig] at hc'
    | hostKey _ _ _ _ _ hc' => simp [hconfig, Config.host] at hc'
    | hostPassword _ _ _ _ _ hc' => simp [hconfig] at hc'
    | clientKey identity' pinnedHost' hybrid' st msg rest hconfig' hinbox hhello hreply =>
      obtain ⟨rfl, rfl, rfl⟩ := Config.clientKey.inj (hconfig.symm.trans hconfig')
      obtain ⟨hpinned, hversion, hpq, -⟩ := clientKeyHello_spec hhello
      cases hpinned
      obtain ⟨hsound, hrole, hostFields, _, _, _, hterms, -, hhostId, -⟩ :=
        clientKeyReply_spec hversion hpq hreply
      obtain ⟨h, hh, a', ha', hikm, hterms', hrole', hmatch⟩ :=
        hideal.partner hc ha hacc (hideal.client_protected hc ha hhello hreply hhonest)
      obtain ⟨j, hj⟩ := getElem?_of_mem hh
      obtain ⟨hostIdentity, trust, rest', hhost, hinbox', -, hid, heph⟩ :=
        Session.host_of_terms ha' (hterms'.trans hterms) (by rw [hrole', hrole]; rfl)
      refine ⟨st, a, j, h, hostIdentity, trust, rest', a', hhello, ha, hj, hhost, ?_, hinbox',
        ha', hterms', ?_, (Matches.of_sameKeys hsame).2 hmatch, ?_⟩
      · rw [hid, decodeN_publicKeyB64] at hhostId
        exact Except.ok.inj hhostId
      · rw [(Session.sound_of_agreed ha').pqSecret_isSome, hsound.pqSecret_isSome, hterms']
      · -- another run with a matching channel has the same terms, so the same ephemeral key
        intro j' h' a'' hj' ha'' hmatch''
        obtain ⟨-, hterms'', hrole''⟩ := hideal.same_of_key hc (mem_of_getElem? hj') ha ha''
          ((Matches.of_sameKeys hsame).1 hmatch'').2.1.symm
        obtain ⟨_, _, _, -, -, -, -, heph''⟩ := Session.host_of_terms ha''
          (hterms''.trans hterms) (by rw [hrole'', hrole]; rfl)
        exact hideal.index_eq hj' hj
          (encode_fixedBytes_inj P.b64 (by decide) (heph''.symm.trans heph))
  · intro i h hostIdentity trust ch id hi hconfig hresult
    have hh := mem_of_getElem? hi
    obtain ⟨a, ha, hacc, hsame, hid⟩ := Session.result_eq_ok hresult
    cases Session.ran_of_agreed ha with
    | clientKey _ _ _ _ _ _ hc' | clientPassword _ _ _ _ hc' => simp [hc', Config.host] at hconfig
    | hostPassword _ _ _ _ _ _ _ hcontinue =>
      obtain ⟨-, hrole, -, _, _, _, -, hterms, -⟩ := hostPasswordContinue_spec hcontinue
      have hnone := hid hrole
      rw [hterms] at hnone
      cases hnone
    | hostKey identity' trust' v client rest hconfig' hinbox hcontinue =>
      obtain ⟨rfl, rfl⟩ := Prod.mk.inj (some.inj (hconfig.symm.trans hconfig'))
      obtain ⟨-, hrole, htrust, hostFields, _, hterms, -⟩ := hostKeyContinue_spec hcontinue
      have hsome := hid hrole
      rw [hterms] at hsome
      cases hsome
      refine ⟨htrust, fun key hkey hhonest => ?_⟩
      obtain ⟨c, hc, a', ha', -, hterms', hrole', hmatch⟩ :=
        hideal.partner hh ha hacc (hideal.host_protected hh ha hcontinue hkey hhonest)
      obtain ⟨j, hj⟩ := getElem?_of_mem hc
      obtain ⟨identity, pinnedHost, hybrid, st, hclient, -, -, -, hclientId⟩ :=
        Session.client_of_terms ha' (hterms'.trans hterms) (by rw [hrole', hrole]; rfl)
      refine ⟨a, j, c, identity, pinnedHost, hybrid, a', ha, hj, hclient, ?_, ha', hterms',
        (Matches.of_sameKeys hsame).2 hmatch⟩
      rw [hclientId, decodeN_publicKeyB64] at hkey
      exact Except.ok.inj hkey

/-- The primitives that can be evaluated. -/
def smallSuite : Suite where
  kdf := Kdf.truncating
  aead := Aead.transparent
  signature := SignatureScheme.transparent
  dh := KeyAgreement.additive
  kem := Kem.additive
  pake := Pake.additive
  b64 := Base64.standard

/-- Random values of run `n`. -/
def sampleCoins (n : UInt8) : Coins :=
  ⟨padTo 32 [n, 1], padTo 32 [n, 2], padTo 32 [n, 3], padTo 32 [n, 4]⟩

/-- The confirmation that a run sends for the channel it has derived. -/
def sampleConfirm (s : Session) : Wire :=
  let sent := (s.agreed? smallSuite).bind fun a => (sealToken smallSuite a.channel).toOption
  (sent.map (·.1)).getD (.reject "")

theorem Session.result_of_returned {r : SealedChannel × Option Str}
    (h : (s.result P).bind Except.toOption = some r) : s.result P = some (.ok r) := by
  obtain ⟨x, hx, hr⟩ := bind_eq_some_iff.1 h
  rw [hx, toOption_eq_some.1 hr]

/-- A run of the sample returned a channel and this identity. -/
theorem Session.result_of_identity {id : Option Str}
    (h : ((s.result P).bind Except.toOption).map (·.2) = some id) :
    ∃ ch, s.result P = some (.ok (ch, id)) := by
  obtain ⟨⟨ch, _⟩, hr, rfl⟩ := map_eq_some_iff.1 h
  exact ⟨ch, Session.result_of_returned hr⟩

def sampleClientIdentity : FixedBytes 32 := padTo 32 [11]

def sampleHostIdentity : FixedBytes 32 := padTo 32 [12]

/-- A client in protocol version 3 that has received `inbox`. -/
def sampleKeyClient (inbox : Inbox) : Session :=
  ⟨.clientKey sampleClientIdentity (some sampleHostIdentity) true, sampleCoins 1, inbox⟩

/-- Run `n` of a host that trusts the client. -/
def sampleKeyHost (n : UInt8) (inbox : Inbox) : Session :=
  ⟨.hostKey sampleHostIdentity (· = publicKeyB64 smallSuite sampleClientIdentity), sampleCoins n,
    inbox⟩

def sampleHello : Wire :=
  let sent := clientKeyHello smallSuite sampleClientIdentity (some sampleHostIdentity) true
    (sampleCoins 1)
  (sent.toOption.map fun st => Wire.kex st.version st.client).getD (.reject "")

/-- What run `n` of the host answers. -/
def sampleAnswer (n : UInt8) : Wire :=
  match ((sampleKeyHost n [.ok sampleHello]).agreed? smallSuite).map Agreement.terms with
  | some (.kex v _ host) => .kex v host
  | _ => .reject ""

def sampleClientRun : Session :=
  sampleKeyClient [.ok (sampleAnswer 2), .ok (sampleConfirm (sampleKeyHost 2 [.ok sampleHello]))]

def sampleHostRun (n : UInt8) : Session :=
  sampleKeyHost n [.ok sampleHello, .ok (sampleConfirm (sampleKeyClient [.ok (sampleAnswer 2)]))]

/-- A client and a host that have finished, and a host to which the client's hello and confirmation
were replayed. -/
def sampleKeyWorld : World smallSuite where
  sessions := [sampleClientRun, sampleHostRun 2, sampleHostRun 3]
  signedElsewhere := [(sampleHostIdentity, .lanIdentity sampleHostIdentity)]
  encryptedElsewhere := []

/-- Both finished runs of the sample have a partner. -/
theorem key_mode_agreement_sampleKeyWorld :
    (∃ (ch : SealedChannel) (j : Nat) (h : Session) (a' : Agreement),
      sampleClientRun.result smallSuite = some (.ok (ch, none)) ∧
      sampleKeyWorld.sessions[j]? = some h ∧ h.agreed? smallSuite = some a' ∧
      Matches ch a'.channel) ∧
    ∃ (ch : SealedChannel) (j : Nat) (c : Session) (a' : Agreement),
      (sampleHostRun 2).result smallSuite =
        some (.ok (ch, some (publicKeyB64 smallSuite sampleClientIdentity))) ∧
      sampleKeyWorld.sessions[j]? = some c ∧ c.agreed? smallSuite = some a' ∧
      Matches ch a'.channel := by
  have hagreement := key_mode_agreement
    (show sampleKeyWorld.Ideal [sampleClientIdentity, sampleHostIdentity] [] by decide +kernel)
  constructor
  · obtain ⟨ch, hresult⟩ : ∃ ch, sampleClientRun.result smallSuite = some (.ok (ch, none)) :=
      Session.result_of_identity (by decide +kernel)
    obtain ⟨-, -, j, h, -, -, -, a', -, -, hj, -, -, -, ha', -, -, hmatch, -⟩ :=
      hagreement.1 0 _ _ _ _ ch none rfl rfl (by decide +kernel) hresult
    exact ⟨ch, j, h, a', hresult, hj, ha', hmatch⟩
  · obtain ⟨ch, hresult⟩ : ∃ ch, (sampleHostRun 2).result smallSuite =
        some (.ok (ch, some (publicKeyB64 smallSuite sampleClientIdentity))) :=
      Session.result_of_identity (by decide +kernel)
    obtain ⟨-, j, c, -, -, -, a', -, hj, -, -, ha', -, hmatch⟩ :=
      (hagreement.2 1 _ _ _ ch _ rfl rfl hresult).2 sampleClientIdentity
        (decodeN_publicKeyB64 sampleClientIdentity) (by decide +kernel)
    exact ⟨ch, j, c, a', hresult, hj, ha', hmatch⟩

/-! ## Sides in PIN mode -/

/-- What a PIN-mode run holds: its password, the frame it received, decoded, and the frame it sent.
The client's message is the first of the terms, the host's the second. -/
theorem Session.pin_of_terms {cm hm : Buffer} {cp hp : Option Str} (ha : s.agreed? P = some a)
    (hterms : a.terms = .pake v cm hm cp hp) :
    ∃ (password : Str) (text text' : Str) (rest : Inbox),
      s.config.password = some password ∧ a.source = .password password.asBytes.bytes ∧
      (a.role = .initiator → s.inbox = .ok (.pake v text hp) :: rest ∧
        decode P.b64 text = .ok hm ∧ s.pakeMessage P = some cm ∧
        s.pakeFrame P = some (.pake v text' cp) ∧ decode P.b64 text' = .ok cm) ∧
      (a.role = .responder → s.inbox = .ok (.pake v text cp) :: rest ∧
        decode P.b64 text = .ok cm ∧ s.pakeMessage P = some hm ∧
        s.pakeFrame P = some (.pake v text' hp) ∧ decode P.b64 text' = .ok hm) := by
  cases Session.ran_of_agreed ha with
  | clientKey _ _ _ _ _ _ _ _ hhello hreply =>
    obtain ⟨-, hversion, hpq, -⟩ := clientKeyHello_spec hhello
    obtain ⟨-, -, _, _, _, _, hterms', -⟩ := clientKeyReply_spec hversion hpq hreply
    rw [hterms] at hterms'
    cases hterms'
  | hostKey _ _ _ _ _ _ _ hcontinue =>
    obtain ⟨-, -, -, _, _, hterms', -⟩ := hostKeyContinue_spec hcontinue
    rw [hterms] at hterms'
    cases hterms'
  | clientPassword password hybrid msg rest hconfig hinbox hreply =>
    obtain ⟨-, hrole, hsource, v', text, cp', hp', peer, rfl, hdecode, hterms', hwire⟩ :=
      clientPasswordReply_spec hreply
    rw [hterms] at hterms'
    obtain ⟨rfl, rfl, rfl, rfl, rfl⟩ := Terms.pake.inj hterms'
    refine ⟨password, text, _, rest, by rw [hconfig]; rfl, hsource, fun _ => ⟨hinbox, hdecode,
      ?_, ?_, decode_encode_buffer P.b64 (P.pake.length_message _ _)⟩, fun hresponder => ?_⟩
    · simp [Session.pakeMessage, hconfig, Config.password]
    · simp only [Session.pakeFrame, hconfig, hwire]
    · rw [hrole] at hresponder
      cases hresponder
  | hostPassword password v' text pq rest hconfig hinbox hcontinue =>
    obtain ⟨-, hrole, hsource, hp', peer, answer, hdecode, hterms', hanswer, hwire⟩ :=
      hostPasswordContinue_spec hcontinue
    rw [hterms] at hterms'
    obtain ⟨rfl, rfl, rfl, rfl, rfl⟩ := Terms.pake.inj hterms'
    have hrequire : requireVersion v cp = .ok () := by
      obtain ⟨_, hrequire, -⟩ := bind_eq_ok.1 hcontinue
      exact hrequire
    have hframe : Session.pakeFrame.hostFrame P s password = some (answer.wire P) := by
      simp [Session.pakeFrame.hostFrame, hinbox, hrequire, hanswer, Except.toOption]
    refine ⟨password, text, _, rest, ?_, hsource, fun hinitiator => ?_, fun _ => ⟨hinbox,
      hdecode, ?_, ?_, decode_encode_buffer P.b64 (P.pake.length_message _ _)⟩⟩
    · rcases hconfig with hc | ⟨_, _, hc⟩ <;> rw [hc] <;> rfl
    · rw [hrole] at hinitiator
      cases hinitiator
    · rcases hconfig with hc | ⟨_, _, hc⟩ <;> simp [Session.pakeMessage, hc, Config.password]
    · rcases hconfig with hc | ⟨_, _, hc⟩ <;> simp only [Session.pakeFrame, hc, hframe, hwire]

theorem World.Ideal.pakeMessage_ne (hideal : w.Ideal honest known) {i j : Nat} {m m' : Buffer}
    (hi : w.sessions[i]? = some s) (hj : w.sessions[j]? = some s') (hne : i ≠ j)
    (hm : s.pakeMessage P = some m) (hm' : s'.pakeMessage P = some m') : m ≠ m' := by
  rintro rfl
  obtain ⟨hilt, rfl⟩ := List.getElem?_eq_some_iff.1 hi
  obtain ⟨hjlt, rfl⟩ := List.getElem?_eq_some_iff.1 hj
  have hpair := pairwise_iff_getElem.1 hideal.pakeMessages_differ
  rcases Nat.lt_or_gt_of_ne hne with hlt | hlt
  · exact hpair i j hilt hjlt hlt m hm hm'
  · exact hpair j i hjlt hilt hlt m hm' hm

/-- Agreement in PIN mode. If a run under a password that the attacker does not know returns a
channel, another run with the same password derived the matching channel from the same version,
messages and ML-KEM values. The frame that the run accepted is the partner's: of the same version,
with the same ML-KEM value and the same message. It is not the run's own, since the two messages
differ. -/
theorem pin_mode_agreement (hideal : w.Ideal honest known) {i : Nat} {password : Str}
    {ch : SealedChannel} (hi : w.sessions[i]? = some s)
    (hconfig : s.config.password = some password) (hunknown : password.asBytes.bytes ∉ known)
    (hresult : s.result P = some (.ok (ch, none))) :
    ∃ (j : Nat) (s' : Session) (a a' : Agreement) (v : UInt16) (cm hm : Buffer)
      (cp hp : Option Str), j ≠ i ∧ w.sessions[j]? = some s' ∧
      s'.config.password = some password ∧ s.agreed? P = some a ∧ s'.agreed? P = some a' ∧
      a.terms = .pake v cm hm cp hp ∧ a'.terms = .pake v cm hm cp hp ∧
      a'.role = a.role.peer ∧ Matches ch a'.channel ∧ cm ≠ hm ∧
      ∃ (text text' : Str) (pq : Option Str) (rest : Inbox) (peer : Buffer),
        s.inbox = .ok (.pake v text pq) :: rest ∧ s'.pakeFrame P = some (.pake v text' pq) ∧
        decode P.b64 text = .ok peer ∧ decode P.b64 text' = .ok peer := by
  have hs := mem_of_getElem? hi
  obtain ⟨a, ha, hacc, hsame, hid⟩ := Session.result_eq_ok hresult
  -- a finished run with a password and without an identity is a PIN-mode run
  obtain ⟨v, cm, hm, cp, hp, hterms⟩ : ∃ v cm hm cp hp, a.terms = .pake v cm hm cp hp := by
    cases hterms : a.terms with
    | pake v cm hm cp hp => exact ⟨v, cm, hm, cp, hp, rfl⟩
    | kex v client host =>
      cases hrole : a.role with
      | responder =>
        have hnone := hid hrole
        rw [hterms] at hnone
        cases hnone
      | initiator =>
        obtain ⟨_, _, _, _, hclient, -⟩ := Session.client_of_terms ha hterms hrole
        simp [hclient, Config.password] at hconfig
  obtain ⟨password', text, text', rest, hpassword, hsource, hclient, hhost⟩ :=
    Session.pin_of_terms ha hterms
  obtain rfl : password' = password := some.inj (hpassword.symm.trans hconfig)
  have hprot : a.Protected w.ephemerals known := by
    simp only [Agreement.Protected, hsource]
    exact hunknown
  obtain ⟨s', hs', a', ha', hikm, hterms', hrole', hmatch⟩ := hideal.partner hs ha hacc hprot
  obtain ⟨j, hj⟩ := getElem?_of_mem hs'
  have hterms'' := hterms'.trans hterms
  obtain ⟨password'', text2, text2', rest', hpassword'', hsource', hclient', hhost'⟩ :=
    Session.pin_of_terms ha' hterms''
  have hpq : a'.pqSecret.isSome = a.pqSecret.isSome := by
    rw [(Session.sound_of_agreed ha').pqSecret_isSome, (Session.sound_of_agreed ha).pqSecret_isSome,
      hterms']
  have hbytes := hideal.password a' (World.mem_agreements hs' ha') a (World.mem_agreements hs ha)
    (inputKey_inj hpq hikm).2
  rw [hsource', hsource] at hbytes
  obtain rfl : password'' = password' := Str.asBytes_bytes_inj hbytes
  have hne : j ≠ i := by
    rintro rfl
    rw [hi] at hj
    cases hj
    rw [ha] at ha'
    cases ha'
    exact ChannelRole.peer_ne _ hrole'.symm
  cases hrole : a.role with
  | initiator =>
    rw [hrole] at hrole'
    obtain ⟨hinbox, hdecode, hmessage, -, -⟩ := hclient hrole
    obtain ⟨-, -, hmessage', hframe', hdecode'⟩ := hhost' hrole'
    exact ⟨j, s', a, a', v, cm, hm, cp, hp, hne, hj, hpassword'', ha, ha', hterms, hterms'',
      by rw [hrole', hrole], (Matches.of_sameKeys hsame).2 hmatch,
      hideal.pakeMessage_ne hi hj hne.symm hmessage hmessage', text, text2', hp, rest, hm, hinbox,
      hframe', hdecode, hdecode'⟩
  | responder =>
    rw [hrole] at hrole'
    obtain ⟨hinbox, hdecode, hmessage, -, -⟩ := hhost hrole
    obtain ⟨-, -, hmessage', hframe', hdecode'⟩ := hclient' hrole'
    exact ⟨j, s', a, a', v, cm, hm, cp, hp, hne, hj, hpassword'', ha, ha', hterms, hterms'',
      by rw [hrole', hrole], (Matches.of_sameKeys hsame).2 hmatch,
      hideal.pakeMessage_ne hj hi hne hmessage' hmessage, text, text2', cp, rest, cm, hinbox,
      hframe', hdecode, hdecode'⟩

def samplePin : Str := ⟨['4', '8', '2', '9', '1', '3'], by decide⟩

def sampleOtherPin : Str := ⟨['0', '0', '0', '0', '0', '0'], by decide⟩

def samplePinClient (inbox : Inbox) : Session :=
  ⟨.clientPassword samplePin true, sampleCoins 1, inbox⟩

def samplePinHost (n : UInt8) (pin : Str) (inbox : Inbox) : Session :=
  ⟨.hostPassword pin, sampleCoins n, inbox⟩

def samplePinHello : Wire := ((samplePinClient []).pakeFrame smallSuite).getD (.reject "")

def samplePinAnswer : Wire :=
  ((samplePinHost 2 samplePin [.ok samplePinHello]).pakeFrame smallSuite).getD (.reject "")

def samplePinClientRun : Session :=
  samplePinClient [.ok samplePinAnswer,
    .ok (sampleConfirm (samplePinHost 2 samplePin [.ok samplePinHello]))]

def samplePinHostRun (n : UInt8) (pin : Str) : Session :=
  samplePinHost n pin [.ok samplePinHello,
    .ok (sampleConfirm (samplePinClient [.ok samplePinAnswer]))]

/-- A client and a host that have finished, a host with another PIN that received the same messages,
and a client to which its own frames were reflected. -/
def samplePinWorld : World smallSuite where
  sessions :=
    [samplePinClientRun, samplePinHostRun 2 samplePin, samplePinHostRun 3 sampleOtherPin,
      ⟨.clientPassword samplePin false, sampleCoins 4,
        [.ok (.pake classicVersion (smallSuite.b64.encode (padTo 32 [4, 4]).bytes) none)]⟩]
  signedElsewhere := []
  encryptedElsewhere := []

/-- The client of the sample has a partner, against an attacker who knows another PIN. -/
theorem pin_mode_agreement_samplePinWorld :
    ∃ (ch : SealedChannel) (j : Nat) (s' : Session) (a' : Agreement),
      samplePinClientRun.result smallSuite = some (.ok (ch, none)) ∧
      samplePinWorld.sessions[j]? = some s' ∧ s'.config.password = some samplePin ∧
      s'.agreed? smallSuite = some a' ∧ Matches ch a'.channel := by
  obtain ⟨ch, hresult⟩ : ∃ ch, samplePinClientRun.result smallSuite = some (.ok (ch, none)) :=
    Session.result_of_identity (by decide +kernel)
  obtain ⟨j, s', -, a', -, -, -, -, -, -, hj, hpassword, -, ha', -, -, -, hmatch, -⟩ :=
    pin_mode_agreement
      (show samplePinWorld.Ideal [] [sampleOtherPin.asBytes.bytes] by decide +kernel) (i := 0) rfl
      rfl (by decide +kernel) hresult
  exact ⟨ch, j, s', a', hresult, hj, hpassword, ha', hmatch⟩

end Partner

end RivetLink.Sdk
