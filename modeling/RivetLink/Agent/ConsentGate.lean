import RivetLink.Agent.LanSession
import RivetLink.Sdk.DirectAgreement

/-!
# The consent gate of a LAN session

A session is gated if its client needs the host's consent and the host can be asked. `Effect` says
once what an action can do that matters for the gate. `frames_after_consent` follows by induction:
in every run of a gated session, stream frames are sent only after `ask_consent` has returned true.

Screenshots are different. The branch of `serve_loop` that answers a screenshot request does not ask
for consent, so a gated session sends the screen to a client that nobody has accepted
(`screenshot_without_consent`). `content_after_consent` holds for the runs in which no screenshot
request is answered with a capture.
-/

namespace RivetLink.Agent

open List Option RivetLink.Foundation RivetLink.Sdk

/-- A client that needs no consent has proved an identity that the host trusts. -/
theorem trusted_of_labelled {P : Suite} {auth : LanAuth} {identity : FixedBytes 32} {h : Session}
    {ch : Crypto.SealedChannel} {id : Option Str} {peerIp : Str}
    (hconfig : h.config = auth.config identity) (hresult : h.result P = some (.ok (ch, id)))
    (hlabelled : (labelClient id peerIp).2 = false) :
    ∃ key, id = some key ∧ auth.trusts key = true := by
  cases id with
  | none => cases hlabelled
  | some key =>
    obtain ⟨identity', trust, hhost, htrust⟩ := Session.trust_of_result hresult
    rw [hconfig] at hhost
    cases auth <;> cases hhost
    · exact ⟨key, rfl, htrust⟩
    · exact ⟨key, rfl, htrust⟩

theorem trusted_of_labelled_sampleHostRun :
    ∃ key, (LanAuth.key (· = publicKeyB64 smallSuite sampleClientIdentity) false).trusts key := by
  obtain ⟨_, h⟩ := Session.result_of_identity (s := sampleHostRun 2) (P := smallSuite)
    (show _ = some (some (publicKeyB64 smallSuite sampleClientIdentity)) by decide +kernel)
  exact (trusted_of_labelled rfl h (rfl : (labelClient _ Str.empty).2 = _)).imp fun _ => And.right

namespace LanSession

variable {S : SignatureScheme} {B : Base64} {s t : LanSession} {a : Action}

/-- The client needs consent and the host can be asked. -/
def gated (s : LanSession) : Bool := s.config.needsConsent && s.config.consent

def isStreaming (s : LanSession) : Bool :=
  match s.phase with
  | .streaming _ => true
  | _ => false

/-- What an action does to the gate: nothing, a screenshot, a frame of a running stream, a stream
that starts because the host accepted, or a stream of a session without a gate. -/
inductive Effect (s t : LanSession) : Action → Prop where
  | quiet {a : Action} (rs : List LanResponse) (hsent : t.sent = s.sent ++ rs)
      (hquiet : ∀ r ∈ rs, r.isScreenContent = false) (hgranted : t.granted = s.granted)
      (hphase : t.isStreaming = true → s.isStreaming = true) : Effect s t a
  | screenshot {png : Bytes} {sendOk : Bool} (pngB64 : Str)
      (hsent : t.sent = s.sent ++ [.screenshot pngB64]) (hgranted : t.granted = s.granted)
      (hphase : t.isStreaming = false) : Effect s t (.captured (.ok png) sendOk)
  | frame {f : StreamFrame} {sendOk : Bool} (hsent : t.sent = s.sent ++ [f.response])
      (hgranted : t.granted = s.granted) (hphase : s.isStreaming = true) :
      Effect s t (.frame f sendOk)
  | accepted {reply : ConsentReply} (hsent : t.sent = s.sent) (hgranted : t.granted = true) :
      Effect s t (.decided reply)
  | ungated {r : LanRequest} (hgated : s.gated = false) (hsent : t.sent = s.sent)
      (hgranted : t.granted = s.granted) : Effect s t (.request (some r))

/-! ## What the helpers leave alone -/

@[simp] theorem report_config (e : HostEvent) : (s.report e).config = s.config := by
  unfold report
  split <;> rfl

@[simp] theorem report_sent (e : HostEvent) : (s.report e).sent = s.sent := by
  unfold report
  split <;> rfl

@[simp] theorem report_granted (e : HostEvent) : (s.report e).granted = s.granted := by
  unfold report
  split <;> rfl

@[simp] theorem respond_isStreaming (r : LanResponse) (sendOk : Bool) :
    (s.respond r sendOk).isStreaming = false := by
  cases sendOk <;> rfl

theorem onHost_eq (change : HostChange) :
    (s.onHost change).config = s.config ∧ (s.onHost change).sent = s.sent ∧
      (s.onHost change).granted = s.granted ∧ (s.onHost change).phase = s.phase := by
  cases change <;> exact ⟨rfl, rfl, rfl, rfl⟩

/-- An action that adds nothing to what was sent and does not start a stream. -/
theorem Effect.of_sent_eq (hsent : t.sent = s.sent) (hgranted : t.granted = s.granted)
    (hphase : t.isStreaming = true → s.isStreaming = true) : Effect s t a :=
  .quiet [] (by rw [hsent, append_nil]) (by simp) hgranted hphase

/-- An action that sends one response without screen content and does not start a stream. -/
theorem Effect.of_send {r : LanResponse} (hsent : t.sent = s.sent ++ [r])
    (hr : r.isScreenContent = false) (hgranted : t.granted = s.granted)
    (hphase : t.isStreaming = true → s.isStreaming = true) : Effect s t a :=
  .quiet [r] hsent (by simpa using hr) hgranted hphase

/-- A request outside a stream starts one only if there is no gate. -/
theorem onRequest_effect (r : Option LanRequest) :
    (s.onRequest S B r).config = s.config ∧ Effect s (s.onRequest S B r) (.request r) := by
  match r with
  | some (.startStream fps display name identityKey identitySig codecs) =>
    simp only [onRequest, requestStream]
    by_cases hgate : s.config.needsConsent && s.config.consent
    · rw [if_pos hgate]
      exact ⟨rfl, .of_sent_eq rfl rfl (by simp [isStreaming])⟩
    · rw [if_neg hgate]
      exact ⟨report_config _, .ungated (by simpa [gated] using hgate) (report_sent _)
        (report_granted _)⟩
  | none | some .screenshot | some .listDisplays =>
    exact ⟨rfl, .of_sent_eq rfl rfl (by simp [onRequest, isStreaming])⟩
  | some (.switchDisplay _) | some (.pointerMove _ _) | some (.pointerButton _ _)
  | some (.scroll _ _) | some (.key _ _) | some (.consoleCapture _) | some .enableSharing
  | some (.clipboardSet _) | some (.fileUploadStart _ _ _) | some (.fileUploadChunk _ _)
  | some (.fileUploadEnd _) | some .listSharedFiles | some (.fileDownload _ _)
  | some .requestKeyframe => exact ⟨rfl, .of_sent_eq rfl rfl id⟩

/-- The answer to a screenshot request is sent whether the host was asked or not. -/
theorem captured_effect (png : Except String Bytes) (sendOk : Bool) :
    (s.respond (screenshotResponse B png) sendOk).config = s.config ∧
      Effect s (s.respond (screenshotResponse B png) sendOk) (.captured png sendOk) := by
  cases png with
  | ok png => exact ⟨rfl, .screenshot (B.encode png) rfl rfl (by simp)⟩
  | error e => exact ⟨rfl, .of_send (r := .error e) rfl rfl rfl (by simp)⟩

/-- The host's decision starts a stream only if it is to accept. -/
theorem onDecided_effect (start : StreamStart) (reply : ConsentReply) :
    (s.onDecided start reply).config = s.config ∧
      Effect s (s.onDecided start reply) (.decided reply) := by
  unfold onDecided
  split
  · exact ⟨report_config _, .accepted (report_sent _) (report_granted _)⟩
  · exact ⟨rfl, .of_send (r := .error "the host declined the connection") rfl rfl rfl
      (by simp [isStreaming])⟩

theorem keeps_ite {c : Prop} [Decidable c] {x y : LanSession}
    (hx : x.config = s.config ∧ x.sent = s.sent ∧ x.granted = s.granted)
    (hy : y.config = s.config ∧ y.sent = s.sent ∧ y.granted = s.granted) :
    (if c then x else y).config = s.config ∧ (if c then x else y).sent = s.sent ∧
      (if c then x else y).granted = s.granted := by
  split
  · exact hx
  · exact hy

/-- A request during a stream sends nothing by itself. -/
theorem onControl_eq (st : Stream) (r : Option LanRequest) :
    (s.onControl st r).config = s.config ∧ (s.onControl st r).sent = s.sent ∧
      (s.onControl st r).granted = s.granted := by
  rcases r with _ | r
  · exact ⟨report_config _, report_sent _, report_granted _⟩
  · -- a request steers the stream or is input, each of them perhaps not allowed, or is ignored
    cases r
    all_goals first
    | exact ⟨rfl, rfl, rfl⟩
    | exact keeps_ite ⟨rfl, rfl, rfl⟩ ⟨rfl, rfl, rfl⟩

/-- An event of a running stream sends frames and messages. -/
theorem stepSelect_effect {st : Stream} (hstreaming : s.isStreaming = true)
    (h : s.stepSelect st a = some t) : t.config = s.config ∧ Effect s t a := by
  have hstay : t.isStreaming = true → s.isStreaming = true := fun _ => hstreaming
  unfold stepSelect at h
  split at h
  · rename_i f sendOk
    cases sendOk <;> cases h
    · exact ⟨report_config _, .frame (report_sent _) (report_granted _) hstreaming⟩
    · exact ⟨rfl, .frame rfl rfl hstreaming⟩
  · cases h
    exact ⟨report_config _, .of_send (report_sent _) rfl (report_granted _) hstay⟩
  · cases h
    obtain ⟨hconfig, hsent, hgranted⟩ := onControl_eq (s := s) st _
    exact ⟨hconfig, .of_sent_eq hsent hgranted hstay⟩
  · obtain ⟨-, ⟨⟩⟩ := ite_none_right_eq_some.1 h
    exact ⟨report_config _, .of_sent_eq (report_sent _) (report_granted _) hstay⟩
  · obtain ⟨-, ⟨⟩⟩ := ite_none_right_eq_some.1 h
    exact ⟨rfl, .of_sent_eq rfl rfl hstay⟩
  · cases h

/-- Every action has one of the effects. -/
theorem step_effect (h : s.step S B a = some t) : t.config = s.config ∧ Effect s t a := by
  unfold step at h
  split at h
  · split at h <;> cases h
    exact onRequest_effect _
  · split at h <;> cases h
    exact captured_effect _ _
  · split at h
    · cases h
      exact ⟨rfl, .of_send rfl rfl rfl (by simp)⟩
    · rename_i st hphase
      have hstreaming : s.isStreaming = true := by simp [isStreaming, hphase]
      split at h
      · cases h
        exact ⟨rfl, .of_send rfl rfl rfl fun _ => hstreaming⟩
      · cases h
        exact ⟨rfl, .of_send rfl rfl rfl fun _ => hstreaming⟩
      · cases h
    · cases h
  · split at h <;> cases h
    exact onDecided_effect _ _
  · cases h
    obtain ⟨hconfig, hsent, hgranted, hphase⟩ := onHost_eq (s := s) _
    exact ⟨hconfig, .of_sent_eq hsent hgranted (by simp [isStreaming, hphase])⟩
  · split at h
    · rename_i st hphase
      split at h <;> cases h
      exact ⟨rfl, .of_sent_eq rfl rfl fun _ => by simp [isStreaming, hphase]⟩
    · cases h
  · split at h
    · rename_i st hphase
      obtain ⟨-, h⟩ := ite_none_right_eq_some.1 h
      exact stepSelect_effect (by simp [isStreaming, hphase]) h
    · cases h

/-! ## Runs -/

/-- Behind the gate: a stream runs, and frames have been sent, only once consent was given. -/
structure Gate (s : LanSession) : Prop where
  gated : s.gated = true
  streaming : s.isStreaming = true → s.granted = true
  frames : ∀ r ∈ s.sent, r.isFrame = true → s.granted = true

theorem Gate.step (hgate : Gate s) (h : s.step S B a = some t) : Gate t := by
  obtain ⟨hconfig, heffect⟩ := step_effect h
  have hgated : t.gated = true := by rw [LanSession.gated, hconfig]; exact hgate.gated
  cases heffect with
  | quiet rs hsent hquiet hgranted hphase =>
    refine ⟨hgated, fun ht => hgranted ▸ hgate.streaming (hphase ht), fun r hr hframe => ?_⟩
    rw [hsent] at hr
    rcases mem_append.1 hr with hr | hr
    · exact hgranted ▸ hgate.frames r hr hframe
    · have hcontent := hquiet r hr
      cases r <;> simp_all [LanResponse.isFrame, LanResponse.isScreenContent]
  | screenshot pngB64 hsent hgranted hphase =>
    refine ⟨hgated, fun ht => by simp [hphase] at ht, fun r hr hframe => ?_⟩
    rw [hsent] at hr
    rcases mem_append.1 hr with hr | hr
    · exact hgranted ▸ hgate.frames r hr hframe
    · obtain rfl := mem_singleton.1 hr
      cases hframe
  | frame hsent hgranted hphase =>
    have ht : t.granted = true := hgranted ▸ hgate.streaming hphase
    exact ⟨hgated, fun _ => ht, fun _ _ _ => ht⟩
  | accepted hsent hgranted => exact ⟨hgated, fun _ => hgranted, fun _ _ _ => hgranted⟩
  | ungated hungated => exact absurd hgate.gated (by simp [hungated])

/-- Everything sent that shows the screen was sent after consent. -/
def Consented (s : LanSession) : Prop :=
  ∀ r ∈ s.sent, r.isScreenContent = true → s.granted = true

/-- No capture for a screenshot succeeds: where screenshots are served nobody has been asked yet. -/
def NoScreenshot (_ : LanSession) : Action → Prop
  | .captured (.ok _) _ => False
  | _ => True

instance (s : LanSession) (a : Action) : Decidable (s.NoScreenshot a) := by
  unfold NoScreenshot
  split <;> infer_instance

theorem Consented.step (hgate : Gate s) (hcon : s.Consented) (hguard : s.NoScreenshot a)
    (h : s.step S B a = some t) : t.Consented := by
  intro r hr hcontent
  cases (step_effect h).2 with
  | quiet rs hsent hquiet hgranted hphase =>
    rw [hsent] at hr
    rcases mem_append.1 hr with hr | hr
    · exact hgranted ▸ hcon r hr hcontent
    · rw [hquiet r hr] at hcontent
      cases hcontent
  | screenshot pngB64 hsent hgranted hphase => exact hguard.elim
  | frame hsent hgranted hphase => exact hgranted.trans (hgate.streaming hphase)
  | accepted hsent hgranted => exact hgranted
  | ungated hungated => exact absurd hgate.gated (by simp [hungated])

section Runs

variable {config : SessionConfig} {kick : Option (Watch Unit)}
  {shareAll control : Option (Watch Bool)} {acts : List Action}

theorem gate_new (hneeds : config.needsConsent = true) (hconsent : config.consent = true) :
    Gate (new config kick shareAll control) where
  gated := by simp [LanSession.gated, new, hneeds, hconsent]
  streaming := by simp [isStreaming, new]
  frames := by simp [new]

/-- In every run of a gated session, frames are sent only after consent. -/
theorem frames_after_consent (hneeds : config.needsConsent = true)
    (hconsent : config.consent = true)
    (hrun : runFrom (step S B) (new config kick shareAll control) acts = some s) :
    ∀ r ∈ s.sent, r.isFrame = true → s.granted = true :=
  (invariant_of_step (I := Gate) (fun _ _ _ hgate h => hgate.step h)
    (gate_new hneeds hconsent) hrun).frames

/-- In every run of a gated session in which no capture for a screenshot succeeds, nothing that
shows the screen is sent before consent. -/
theorem content_after_consent (hneeds : config.needsConsent = true)
    (hconsent : config.consent = true)
    (hmeets : RunMeets (step S B) NoScreenshot (new config kick shareAll control) acts)
    (hrun : runFrom (step S B) (new config kick shareAll control) acts = some s) :
    ∀ r ∈ s.sent, r.isScreenContent = true → s.granted = true :=
  (invariant_of_guardedStep (I := fun s => Gate s ∧ s.Consented)
    (fun _ _ _ hinv hguard h => ⟨hinv.1.step h, hinv.2.step hinv.1 hguard h⟩)
    ⟨gate_new hneeds hconsent, by simp [Consented, new]⟩ hmeets hrun).2

end Runs

/-! ## Two runs of a gated session -/

/-- A client that has authenticated with the PIN, at a host that can be asked. -/
def pinSession : LanSession :=
  new { needsConsent := (labelClient none Str.empty).2, consent := true,
        label := (labelClient none Str.empty).1, events := true } none none none

/-- The client asks for a screenshot, and it is sent without asking the host. -/
def screenshotRun : List Action := [.request (some .screenshot), .captured (.ok [1, 2, 3]) true]

/-- A session that needs consent sends a screenshot to a client that nobody has accepted: the host
was not even asked. -/
theorem screenshot_without_consent :
    pinSession.gated = true ∧
    ∃ s, runFrom (step SignatureScheme.transparent Base64.standard) pinSession screenshotRun =
        some s ∧
      (∃ r ∈ s.sent, r.isScreenContent = true) ∧ s.asked = [] ∧ s.granted = false := by
  refine ⟨by decide, _, rfl, ⟨_, mem_singleton.2 rfl, rfl⟩, rfl, rfl⟩

/-- A screenshot that fails, a display listing, and a stream that the host accepts. -/
def streamRun : List Action :=
  [.request (some .screenshot), .captured (.error "no screen") true,
    .request (some .listDisplays), .displays [] true,
    .request (some (.startStream 30 none none none none [codecH264])), .decided (.replied true),
    .frame (.video ⟨2, 2, true, Str.empty⟩) true, .control (some .screenshot),
    .frame (.video ⟨2, 2, false, Str.empty⟩) false]

/-- The stream run meets the condition and sends frames. -/
theorem content_after_consent_streamRun :
    ∃ s, runFrom (step SignatureScheme.transparent Base64.standard) pinSession streamRun = some s ∧
      (∃ r ∈ s.sent, r.isScreenContent = true) ∧ s.granted = true := by
  have hmeets : RunMeets (step SignatureScheme.transparent Base64.standard) NoScreenshot
      pinSession streamRun := by decide
  obtain ⟨s, hrun, hcontent⟩ :
      ∃ s, runFrom (step SignatureScheme.transparent Base64.standard) pinSession streamRun =
        some s ∧ ∃ r ∈ s.sent, r.isScreenContent = true :=
    ⟨_, rfl, .video ⟨2, 2, true, Str.empty⟩, by decide, rfl⟩
  obtain ⟨r, hr, hshows⟩ := hcontent
  exact ⟨s, hrun, ⟨r, hr, hshows⟩, content_after_consent rfl rfl hmeets hrun r hr hshows⟩

theorem frames_after_consent_streamRun :
    ((runFrom (step .transparent .standard) pinSession streamRun).get rfl).granted = true :=
  frames_after_consent rfl rfl (some_get _).symm (.video ⟨2, 2, true, Str.empty⟩) (by decide) rfl

end LanSession

end RivetLink.Agent
