import Mathlib.Logic.Function.Basic
import RivetLink.Crypto.SealedChannel
import RivetLink.Foundation.Transition

/-!
# A pair of sealed channels under attack

Two channels derived from one secret and one transcript with opposite roles form a `Pair`. Any
number of `seal` calls run concurrently on each end; their loads and compare-exchanges on the send
counter are separate steps. The attacker feeds arbitrary byte strings to either end, and sessions
with other transcripts encrypt whatever they like.

The counter is accessed with relaxed ordering, so a load, and a failed compare-exchange, may return
any value the counter has had. A successful compare-exchange acts on the current value.

`SealCall.Moved` says once what a step of a `seal` call can do. From it come the invariant of the
send side (`Endpoint.SendInv`: claimed sequence numbers are below the counter and pairwise
different, and frames are what `sealClaimed` makes) and, for runs in which the cipher and the key
derivation are ideal, the invariant of the receive side (`Pair.Delivered`).
-/

namespace RivetLink.Crypto

open List RivetLink.Foundation
open Option hiding sequence

/-! ## The calls -/

/-- Where a `seal` call is: before the load, at the head of the loop with a value read, past the
loop with a claimed number, or returned. -/
inductive SealPc where
  | start
  | loaded (sequence : UInt64)
  | claimed (sequence : UInt64)
  | sealed (sequence : UInt64) (frame : Bytes)
  | failed (error : CryptoError)
  deriving DecidableEq

/-- The sequence number under which a call encrypts or has encrypted. -/
def SealPc.sequence? : SealPc → Option UInt64
  | .claimed sequence => some sequence
  | .sealed sequence _ => some sequence
  | _ => none

structure SealCall where
  plaintext : Bytes
  pc : SealPc
  deriving DecidableEq

/-- Steps of a call. `load` returns `value`. `compareExchange none` succeeds;
`compareExchange (some current)` fails, spuriously or not, and returns `current`. -/
inductive SealMove where
  | load (value : UInt64)
  | compareExchange (failure : Option UInt64)
  | encrypt

/-- One end: its channel, the calls made on it, and the plaintexts `open` has returned. -/
structure Endpoint where
  channel : SealedChannel
  calls : List SealCall
  opened : List Bytes

/-- The encryption that a call with a claimed number carries out. -/
def performedBy (A : Aead) (ch : SealedChannel) (sequence : UInt64) (plaintext : Bytes) :
    Option (Performed A) :=
  match h : A.encrypt ch.sendKey (nonce sequence) plaintext
      (aad (header sequence).bytes ch.bindingHash) with
  | .ok ciphertext => some ⟨_, _, _, _, ciphertext, h⟩
  | .error _ => none

def SealCall.move (A : Aead) (ch : SealedChannel) (c : SealCall) :
    SealMove → Option (SealedChannel × SealPc × Option (Performed A))
  | .load value =>
    if c.pc = .start ∧ value ≤ ch.nextSend then some (ch, .loaded value, none) else none
  | .compareExchange failure =>
    match c.pc with
    | .loaded sequence =>
      if sequence = u64Max then some (ch, .failed .nonceExhausted, none)
      else
        match failure with
        | none =>
          if ch.nextSend = sequence then
            some ({ ch with nextSend := sequence + 1 }, .claimed sequence, none)
          else none
        | some current =>
          if current ≤ ch.nextSend then some (ch, .loaded current, none) else none
    | _ => none
  | .encrypt =>
    match c.pc with
    | .claimed sequence =>
      match ch.sealClaimed A sequence c.plaintext with
      | .ok frame => some (ch, .sealed sequence frame, performedBy A ch sequence c.plaintext)
      | .error e => some (ch, .failed e, none)
    | _ => none

/-- What a step of a call can do. -/
inductive SealCall.Moved (A : Aead) (ch : SealedChannel) (c : SealCall) :
    SealedChannel → SealPc → Option (Performed A) → Prop where
  | load (value : UInt64) (hpc : c.pc = .start) : Moved A ch c ch (.loaded value) none
  | exhausted (hpc : c.pc = .loaded u64Max) : Moved A ch c ch (.failed .nonceExhausted) none
  | retry (sequence current : UInt64) (hpc : c.pc = .loaded sequence) (hmax : sequence ≠ u64Max) :
      Moved A ch c ch (.loaded current) none
  | claim (hpc : c.pc = .loaded ch.nextSend) (hmax : ch.nextSend ≠ u64Max) :
      Moved A ch c { ch with nextSend := ch.nextSend + 1 } (.claimed ch.nextSend) none
  | sealed (sequence : UInt64) (frame : Bytes) (hpc : c.pc = .claimed sequence)
      (hseal : ch.sealClaimed A sequence c.plaintext = .ok frame) :
      Moved A ch c ch (.sealed sequence frame) (performedBy A ch sequence c.plaintext)
  | encryptFailed (sequence : UInt64) (e : CryptoError) (hpc : c.pc = .claimed sequence)
      (hseal : ch.sealClaimed A sequence c.plaintext = .error e) :
      Moved A ch c ch (.failed e) none

/-! ## The pair -/

/-- Both ends, and every encryption carried out so far, in this session and elsewhere. -/
structure Pair (A : Aead) where
  ends : ChannelRole → Endpoint
  performed : List (Performed A)

/-- `call`: a thread enters `seal`. `move`: a call takes a step. `feed`: `open` is called with
bytes of the attacker's choice. `elsewhere`: a channel of a session with another transcript
encrypts. -/
inductive PairAction where
  | call (role : ChannelRole) (plaintext : Bytes)
  | move (role : ChannelRole) (index : Nat) (m : SealMove)
  | feed (role : ChannelRole) (message : Bytes)
  | elsewhere (shared transcript : Bytes) (role : ChannelRole) (sequence : UInt64)
      (plaintext : Bytes)

/-- The two ends of a fresh session. -/
def Pair.new (K : Kdf) (A : Aead) (shared transcript : Bytes) : CryptoResult (Pair A) :=
  match SealedChannel.fromHandshakeSecret K shared transcript .initiator,
      SealedChannel.fromHandshakeSecret K shared transcript .responder with
  | .ok i, .ok r =>
    .ok ⟨fun role => match role with
      | .initiator => ⟨i, [], []⟩
      | .responder => ⟨r, [], []⟩, []⟩
  | .error e, _ => .error e
  | _, .error e => .error e

def Pair.step (K : Kdf) (A : Aead) (transcript : Bytes) (w : Pair A) :
    PairAction → Option (Pair A)
  | .call role plaintext =>
    let e := w.ends role
    some { w with
      ends := Function.update w.ends role { e with calls := e.calls ++ [⟨plaintext, .start⟩] } }
  | .move role index m =>
    let e := w.ends role
    e.calls[index]?.bind fun c => (c.move A e.channel m).map fun out =>
      ⟨Function.update w.ends role
          { e with channel := out.1, calls := e.calls.set index { c with pc := out.2.1 } },
        w.performed ++ out.2.2.toList⟩
  | .feed role message =>
    let e := w.ends role
    let out := e.channel.open A message
    some { w with
      ends := Function.update w.ends role
        { e with channel := out.2, opened := e.opened ++ out.1.toOption.toList } }
  | .elsewhere shared' transcript' role sequence plaintext =>
    if transcript' = transcript then none
    else
      match SealedChannel.fromHandshakeSecret K shared' transcript' role with
      | .ok ch =>
        some { w with performed := w.performed ++ (performedBy A ch sequence plaintext).toList }
      | .error _ => none

/-- The keys of two derivations differ whenever label or transcript differ. -/
def KeysDiffer (K : Kdf) (shared transcript shared' transcript' : Bytes) : Prop :=
  ∀ r r' : ChannelRole, (transcript, r.sendLabel) ≠ (transcript', r'.sendLabel) →
    deriveKey K shared transcript r.sendLabel ≠ deriveKey K shared' transcript' r'.sendLabel

instance (K : Kdf) (shared transcript shared' transcript' : Bytes) :
    Decidable (KeysDiffer K shared transcript shared' transcript') := by
  unfold KeysDiffer
  infer_instance

/-- The cipher and the key derivation behave ideally on the values of one action: what `open`
decrypts was produced by a recorded encryption, and other transcripts give other keys. -/
def Pair.Ideal (K : Kdf) (A : Aead) (shared transcript : Bytes) (w : Pair A) : PairAction → Prop
  | .feed role message =>
    let ch := (w.ends role).channel
    A.Authentic w.performed ch.recvKey (nonce ch.nextRecv) (message.drop headerLen)
      (aad (message.take headerLen) ch.bindingHash)
  | .elsewhere shared' transcript' _ _ _ => KeysDiffer K shared transcript shared' transcript'
  | _ => True

instance (K : Kdf) (A : Aead) (shared transcript : Bytes) (w : Pair A) :
    ∀ a, Decidable (w.Ideal K A shared transcript a)
  | .call _ _ => isTrue trivial
  | .move _ _ _ => isTrue trivial
  | .feed _ _ => by unfold Pair.Ideal; infer_instance
  | .elsewhere _ _ _ _ _ => by unfold Pair.Ideal; infer_instance

/-! ## The steps of a call -/

theorem performedBy_eq_some {A : Aead} {ch : SealedChannel} {sequence : UInt64}
    {plaintext : Bytes} {p : Performed A} (h : performedBy A ch sequence plaintext = some p) :
    p.key = ch.sendKey ∧ p.nonce = nonce sequence ∧ p.msg = plaintext ∧
      ch.sealClaimed A sequence plaintext = .ok ((header sequence).bytes ++ p.ciphertext) := by
  unfold performedBy at h
  split at h
  · rename_i ciphertext henc
    cases h
    exact ⟨rfl, rfl, rfl, SealedChannel.sealClaimed_eq_ok.2 ⟨ciphertext, henc, rfl⟩⟩
  · simp at h

section Calls

variable {A : Aead} {ch ch' : SealedChannel} {c : SealCall} {pc : SealPc}
  {log : Option (Performed A)} {s : UInt64}

theorem SealCall.moved_of_move {m : SealMove} (h : c.move A ch m = some (ch', pc, log)) :
    c.Moved A ch ch' pc log := by
  cases m with
  | load value =>
    simp only [SealCall.move] at h
    split at h
    · rename_i hpc
      cases h
      exact .load value hpc.1
    · simp at h
  | compareExchange failure =>
    simp only [SealCall.move] at h
    split at h
    · rename_i sequence hpc
      split at h
      · rename_i hmax
        cases h
        exact .exhausted (hmax ▸ hpc)
      · rename_i hmax
        cases failure with
        | none =>
          simp only at h
          split at h
          · rename_i hnext
            subst hnext
            cases h
            exact .claim hpc hmax
          · simp at h
        | some current =>
          simp only at h
          split at h
          · cases h
            exact .retry sequence current hpc hmax
          · simp at h
    · simp at h
  | encrypt =>
    simp only [SealCall.move] at h
    split at h
    · rename_i sequence hpc
      split at h
      · rename_i frame hseal
        cases h
        exact .sealed sequence frame hpc hseal
      · rename_i e hseal
        cases h
        exact .encryptFailed sequence e hpc hseal
    · simp at h

/-- A step changes nothing of the channel but the send counter. -/
theorem SealCall.Moved.channel_eq (h : c.Moved A ch ch' pc log) :
    ch' = { ch with nextSend := ch'.nextSend } := by
  cases h <;> rfl

/-- The send counter does not go down. -/
theorem SealCall.Moved.nextSend_le (h : c.Moved A ch ch' pc log) :
    ch.nextSend ≤ ch'.nextSend := by
  cases h with
  | claim hpc hmax =>
    rw [UInt64.le_iff_toNat_le, toNat_succ_of_ne_u64Max hmax]
    omega
  | load | exhausted | retry | sealed | encryptFailed => exact UInt64.le_refl _

/-- A step that leaves a call with a sequence number either claims the counter's value or keeps
the number the call had. -/
theorem SealCall.Moved.sequence (h : c.Moved A ch ch' pc log) (hs : pc.sequence? = some s) :
    c.pc.sequence? = some s ∨
      (s = ch.nextSend ∧ ch.nextSend ≠ u64Max ∧ ch'.nextSend = ch.nextSend + 1) := by
  cases h with
  | load | exhausted | retry | encryptFailed => simp [SealPc.sequence?] at hs
  | claim hpc hmax =>
    simp only [SealPc.sequence?, some.injEq] at hs
    exact .inr ⟨hs.symm, hmax, rfl⟩
  | sealed sequence frame hpc =>
    rw [hpc]
    exact .inl hs

/-- A call that has returned a frame takes no more steps. -/
theorem SealCall.Moved.not_sealed (h : c.Moved A ch ch' pc log) {f : Bytes} :
    c.pc ≠ .sealed s f := by
  cases h <;> simp_all

end Calls

/-! ## The send side -/

/-- The call at some index has sealed `plaintext` as `frame` under `sequence`. -/
def Endpoint.Sealed (e : Endpoint) (sequence : UInt64) (plaintext frame : Bytes) : Prop :=
  ∃ i : Nat, e.calls[i]? = some ⟨plaintext, .sealed sequence frame⟩

/-- Claimed numbers are below the counter and belong to one call each, and a frame is the sealing
of its call's plaintext. -/
structure Endpoint.SendInv (A : Aead) (e : Endpoint) : Prop where
  lt_nextSend : ∀ {i : Nat} {c : SealCall} {s : UInt64}, e.calls[i]? = some c →
    c.pc.sequence? = some s → s < e.channel.nextSend
  distinct : ∀ {i j : Nat} {c d : SealCall} {s : UInt64}, e.calls[i]? = some c →
    e.calls[j]? = some d → c.pc.sequence? = some s → d.pc.sequence? = some s → i = j
  frame : ∀ {s : UInt64} {m f : Bytes}, e.Sealed s m f → e.channel.sealClaimed A s m = .ok f

section SendSide

variable {A : Aead} {e : Endpoint} {ch' : SealedChannel} {c : SealCall} {pc : SealPc}
  {log : Option (Performed A)} {index : Nat} {s : UInt64}

/-- Frames that exist stay when a call takes a step. -/
theorem Endpoint.Sealed.of_moved {m f : Bytes} (hsealed : e.Sealed s m f)
    (hc : e.calls[index]? = some c) (h : c.Moved A e.channel ch' pc log) :
    Endpoint.Sealed { e with channel := ch', calls := e.calls.set index { c with pc := pc } }
      s m f := by
  obtain ⟨i, hi⟩ := hsealed
  refine ⟨i, ?_⟩
  by_cases hne : i = index
  · subst hne
    rw [hc] at hi
    cases hi
    exact absurd rfl h.not_sealed
  · exact (getElem?_set_ne (Ne.symm hne)).trans hi

/-- The frame of a new call that has sealed is new; every other frame was there before. -/
theorem Endpoint.Sealed.moved_cases {m f : Bytes} (hsealed : Endpoint.Sealed
      { e with channel := ch', calls := e.calls.set index { c with pc := pc } } s m f) :
    e.Sealed s m f ∨ (m = c.plaintext ∧ pc = .sealed s f) := by
  obtain ⟨i, hi⟩ := hsealed
  rcases of_slot_set hi with ⟨-, hd⟩ | ⟨-, hold⟩
  · cases hd
    exact .inr ⟨rfl, rfl⟩
  · exact .inl ⟨i, hold⟩

/-- The sealing of a plaintext does not depend on the counters. -/
theorem SealCall.Moved.sealClaimed_eq (h : c.Moved A e.channel ch' pc log) (s : UInt64)
    (m : Bytes) : ch'.sealClaimed A s m = e.channel.sealClaimed A s m := by
  rw [h.channel_eq]
  rfl

/-- A step of a call keeps the invariant of its end. -/
theorem Endpoint.SendInv.move (hinv : e.SendInv A) (hc : e.calls[index]? = some c)
    (h : c.Moved A e.channel ch' pc log) :
    Endpoint.SendInv A
      { e with channel := ch', calls := e.calls.set index { c with pc := pc } } where
  lt_nextSend := by
    intro i d s hd hs
    show s < ch'.nextSend
    have hle := h.nextSend_le
    rcases of_slot_set hd with ⟨-, rfl⟩ | ⟨-, hold⟩
    · rcases h.sequence hs with hkept | ⟨rfl, hmax, hnext⟩
      · exact UInt64.lt_of_lt_of_le (hinv.lt_nextSend hc hkept) hle
      · rw [hnext, UInt64.lt_iff_toNat_lt, toNat_succ_of_ne_u64Max hmax]
        omega
    · exact UInt64.lt_of_lt_of_le (hinv.lt_nextSend hold hs) hle
  distinct := by
    -- a number that the moved call has now and another call had before would have to be the
    -- counter's value, which no call has yet
    have hfresh : ∀ {j : Nat} {d : SealCall} {s : UInt64}, j ≠ index → e.calls[j]? = some d →
        pc.sequence? = some s → d.pc.sequence? ≠ some s := by
      intro j d s hj hd hs hds
      rcases h.sequence hs with hkept | ⟨rfl, -, -⟩
      · exact hj (hinv.distinct hd hc hds hkept)
      · exact absurd (hinv.lt_nextSend hd hds) (UInt64.lt_irrefl _)
    intro i j d d' s hd hd' hs hs'
    rcases of_slot_set hd with ⟨hi, rfl⟩ | ⟨hi, hold⟩ <;>
      rcases of_slot_set hd' with ⟨hj, rfl⟩ | ⟨hj, hold'⟩
    · rw [hi, hj]
    · exact absurd hs' (hfresh hj hold' hs)
    · exact absurd hs (hfresh hi hold hs')
    · exact hinv.distinct hold hold' hs hs'
  frame := by
    intro s m f hsealed
    rw [h.sealClaimed_eq]
    rcases hsealed.moved_cases with hold | ⟨rfl, rfl⟩
    · exact hinv.frame hold
    · cases h with
      | sealed _ _ _ hseal => exact hseal

theorem Endpoint.Sealed.call_iff {m f plaintext : Bytes} :
    Endpoint.Sealed { e with calls := e.calls ++ [⟨plaintext, .start⟩] } s m f ↔
      e.Sealed s m f := by
  constructor
  · rintro ⟨i, hi⟩
    rcases of_slot_snoc hi with hold | ⟨-, hnew⟩
    · exact ⟨i, hold⟩
    · cases hnew
  · rintro ⟨i, hi⟩
    exact ⟨i, slot_snoc hi⟩

/-- Entering `seal` keeps the invariant. -/
theorem Endpoint.SendInv.call (hinv : e.SendInv A) (plaintext : Bytes) :
    Endpoint.SendInv A { e with calls := e.calls ++ [⟨plaintext, .start⟩] } where
  lt_nextSend := by
    intro i d s hd hs
    rcases of_slot_snoc hd with hold | ⟨-, rfl⟩
    · exact hinv.lt_nextSend hold hs
    · cases hs
  distinct := by
    intro i j d d' s hd hd' hs hs'
    rcases of_slot_snoc hd with hold | ⟨-, rfl⟩
    · rcases of_slot_snoc hd' with hold' | ⟨-, rfl⟩
      · exact hinv.distinct hold hold' hs hs'
      · cases hs'
    · cases hs
  frame := fun hsealed => hinv.frame (Endpoint.Sealed.call_iff.1 hsealed)

/-- The invariant does not mention the receive counter and what was opened. -/
theorem Endpoint.SendInv.opened (hinv : e.SendInv A) (n : UInt64) (opened : List Bytes) :
    Endpoint.SendInv A
      { e with channel := { e.channel with nextRecv := n }, opened := opened } where
  lt_nextSend := hinv.lt_nextSend
  distinct := hinv.distinct
  frame := hinv.frame

end SendSide

/-! ## Steps of the pair -/

section PairSteps

variable {K : Kdf} {A : Aead} {shared transcript : Bytes} {w w' : Pair A} {role : ChannelRole}
  {a : PairAction}

/-- The keys are those of the session, and the send invariant holds at both ends. -/
structure Pair.Inv (K : Kdf) (A : Aead) (shared transcript : Bytes) (w : Pair A) : Prop where
  sendKey : ∀ r, deriveKey K shared transcript r.sendLabel = some (w.ends r).channel.sendKey
  recvKey : ∀ r, (w.ends r).channel.recvKey = (w.ends r.peer).channel.sendKey
  bindingHash : ∀ r, (w.ends r).channel.bindingHash = K.sha256 transcript
  send : ∀ r, (w.ends r).SendInv A

/-- `feed` with a rejected message changes nothing; with an accepted one it moves the receive
counter and appends the plaintext. -/
theorem Pair.step_feed {message : Bytes}
    (h : w.step K A transcript (.feed role message) = some w') :
    w' = w ∨ ∃ plaintext ciphertext : Bytes,
      message = (header (w.ends role).channel.nextRecv).bytes ++ ciphertext ∧
      (w.ends role).channel.nextRecv ≠ u64Max ∧
      A.decrypt (w.ends role).channel.recvKey (nonce (w.ends role).channel.nextRecv) ciphertext
        (aad (header (w.ends role).channel.nextRecv).bytes (w.ends role).channel.bindingHash) =
          .ok plaintext ∧
      w' = ⟨Function.update w.ends role
        { w.ends role with
          channel := { (w.ends role).channel with nextRecv := (w.ends role).channel.nextRecv + 1 },
          opened := (w.ends role).opened ++ [plaintext] }, w.performed⟩ := by
  simp only [Pair.step, some.injEq] at h
  cases hopen : (w.ends role).channel.open A message with
  | mk result ch' =>
    cases result with
    | error e =>
      have hch : ch' = (w.ends role).channel := by
        have hsame := SealedChannel.open_error (congrArg Prod.fst hopen)
        rwa [hopen] at hsame
      left
      rw [← h, hopen, hch]
      simp [Except.toOption]
    | ok plaintext =>
      obtain ⟨ciphertext, hmsg, -, hmax, hdec, rfl⟩ := SealedChannel.open_eq_ok_iff.1 hopen
      right
      refine ⟨plaintext, ciphertext, hmsg, hmax, hdec, ?_⟩
      rw [← h, hopen]
      simp [Except.toOption]

theorem Pair.step_move {index : Nat} {m : SealMove}
    (h : w.step K A transcript (.move role index m) = some w') :
    ∃ c ch' pc log, (w.ends role).calls[index]? = some c ∧
      c.Moved A (w.ends role).channel ch' pc log ∧
      w' = ⟨Function.update w.ends role
        { w.ends role with
          channel := ch', calls := (w.ends role).calls.set index { c with pc := pc } },
        w.performed ++ log.toList⟩ := by
  simp only [Pair.step, bind_eq_some_iff, map_eq_some_iff] at h
  obtain ⟨c, hc, ⟨ch', pc, log⟩, hmove, rfl⟩ := h
  exact ⟨c, ch', pc, log, hc, SealCall.moved_of_move hmove, rfl⟩

theorem Pair.step_elsewhere {shared' transcript' plaintext : Bytes} {sequence : UInt64}
    (h : w.step K A transcript (.elsewhere shared' transcript' role sequence plaintext) =
      some w') :
    transcript' ≠ transcript ∧ ∃ ch,
      SealedChannel.fromHandshakeSecret K shared' transcript' role = .ok ch ∧
      w' = { w with performed := w.performed ++ (performedBy A ch sequence plaintext).toList } := by
  simp only [Pair.step] at h
  split at h
  · simp at h
  · rename_i hne
    split at h
    · rename_i ch hch
      exact ⟨hne, ch, hch, (some.inj h).symm⟩
    · simp at h

/-- Replacing an end by one with the same keys keeps the invariant. -/
theorem Pair.Inv.update (hinv : w.Inv K A shared transcript) (role : ChannelRole) (e : Endpoint)
    (performed : List (Performed A))
    (hsend : e.channel.sendKey = (w.ends role).channel.sendKey)
    (hrecv : e.channel.recvKey = (w.ends role).channel.recvKey)
    (hhash : e.channel.bindingHash = (w.ends role).channel.bindingHash) (he : e.SendInv A) :
    Pair.Inv K A shared transcript ⟨Function.update w.ends role e, performed⟩ := by
  have hkeys : ∀ r, (Function.update w.ends role e r).channel.sendKey =
        (w.ends r).channel.sendKey ∧
      (Function.update w.ends role e r).channel.recvKey = (w.ends r).channel.recvKey ∧
      (Function.update w.ends role e r).channel.bindingHash =
        (w.ends r).channel.bindingHash := by
    intro r
    by_cases hr : r = role
    · subst hr
      rw [Function.update_self]
      exact ⟨hsend, hrecv, hhash⟩
    · rw [Function.update_of_ne hr]
      exact ⟨rfl, rfl, rfl⟩
  refine ⟨fun r => ?_, fun r => ?_, fun r => ?_, fun r => ?_⟩
  · exact (hkeys r).1 ▸ hinv.sendKey r
  · exact (hkeys r).2.1.trans ((hinv.recvKey r).trans (hkeys r.peer).1.symm)
  · exact (hkeys r).2.2.trans (hinv.bindingHash r)
  · by_cases hr : r = role
    · subst hr
      simpa using he
    · simpa [hr] using hinv.send r

/-- Every step keeps the invariant. -/
theorem Pair.Inv.step (hinv : w.Inv K A shared transcript) (h : w.step K A transcript a = some w') :
    w'.Inv K A shared transcript := by
  cases a with
  | call role plaintext =>
    cases h
    exact hinv.update role _ w.performed rfl rfl rfl ((hinv.send role).call plaintext)
  | move role index m =>
    obtain ⟨c, ch', pc, log, hc, hmoved, rfl⟩ := Pair.step_move h
    have hch := hmoved.channel_eq
    exact hinv.update role _ _ (by rw [hch]) (by rw [hch]) (by rw [hch])
      ((hinv.send role).move hc hmoved)
  | feed role message =>
    rcases Pair.step_feed h with rfl | ⟨plaintext, ciphertext, -, -, -, rfl⟩
    · exact hinv
    · exact hinv.update role _ w.performed rfl rfl rfl ((hinv.send role).opened _ _)
  | elsewhere shared' transcript' role sequence plaintext =>
    obtain ⟨-, ch, -, rfl⟩ := Pair.step_elsewhere h
    exact ⟨hinv.sendKey, hinv.recvKey, hinv.bindingHash, hinv.send⟩

/-- A fresh pair meets the invariant. -/
theorem Pair.inv_new (h : Pair.new K A shared transcript = .ok w) :
    w.Inv K A shared transcript ∧ w.performed = [] ∧
      ∀ r, (w.ends r).calls = [] ∧ (w.ends r).opened = [] ∧
        (w.ends r).channel.nextSend = 0 ∧ (w.ends r).channel.nextRecv = 0 := by
  unfold Pair.new at h
  split at h
  · rename_i i r hi hr
    obtain ⟨hsi, hri, hhi, hni, hmi⟩ := SealedChannel.fromHandshakeSecret_eq_ok.1 hi
    obtain ⟨hsr, hrr, hhr, hnr, hmr⟩ := SealedChannel.fromHandshakeSecret_eq_ok.1 hr
    obtain rfl := Except.ok.inj h
    refine ⟨⟨?_, ?_, ?_, ?_⟩, rfl, ?_⟩
    · intro role
      cases role
      · exact hsi
      · exact hsr
    · intro role
      cases role
      · exact some.inj (hri.symm.trans hsr)
      · exact some.inj (hrr.symm.trans hsi)
    · intro role
      cases role
      · exact hhi
      · exact hhr
    · intro role
      cases role <;>
        exact ⟨by simp, by simp, by rintro s m f ⟨i, hi⟩; simp at hi⟩
    · intro role
      cases role
      · exact ⟨rfl, rfl, hni, hmi⟩
      · exact ⟨rfl, rfl, hnr, hmr⟩
  · simp at h
  · simp at h

/-- The two ends send under different keys. -/
theorem Pair.Inv.sendKey_ne (hinv : w.Inv K A shared transcript)
    (hlabels : KeysDiffer K shared transcript shared transcript) (r : ChannelRole) :
    (w.ends r).channel.sendKey ≠ (w.ends r.peer).channel.sendKey := by
  intro h
  have hne : (transcript, r.sendLabel) ≠ (transcript, r.peer.sendLabel) := by
    cases r <;> simp only [ne_eq, Prod.mk.injEq, true_and] <;> decide
  refine hlabels r r.peer hne ?_
  rw [hinv.sendKey r, hinv.sendKey r.peer, h]

/-- Steps do not change the keys. -/
theorem Pair.Inv.sendKey_step (hinv : w.Inv K A shared transcript)
    (h : w.step K A transcript a = some w') (r : ChannelRole) :
    (w'.ends r).channel.sendKey = (w.ends r).channel.sendKey :=
  some.inj (((hinv.step h).sendKey r).symm.trans (hinv.sendKey r))

/-- Frames that exist stay. -/
theorem Pair.sealed_step (h : w.step K A transcript a = some w') {r : ChannelRole} {s : UInt64}
    {m f : Bytes} (hsealed : (w.ends r).Sealed s m f) : (w'.ends r).Sealed s m f := by
  cases a with
  | call role plaintext =>
    cases h
    by_cases hr : r = role
    · subst hr
      simpa using Endpoint.Sealed.call_iff.2 hsealed
    · simpa [hr] using hsealed
  | move role index m =>
    obtain ⟨c, ch', pc, log, hc, hmoved, rfl⟩ := Pair.step_move h
    by_cases hr : r = role
    · subst hr
      simpa using hsealed.of_moved hc hmoved
    · simpa [hr] using hsealed
  | feed role message =>
    rcases Pair.step_feed h with rfl | ⟨plaintext, ciphertext, -, -, -, rfl⟩
    · exact hsealed
    · by_cases hr : r = role
      · subst hr
        obtain ⟨i, hi⟩ := hsealed
        exact ⟨i, by simpa using hi⟩
      · simpa [hr] using hsealed
  | elsewhere shared' transcript' role sequence plaintext =>
    obtain ⟨-, ch, -, rfl⟩ := Pair.step_elsewhere h
    exact hsealed

/-- An end's receive side changes only by an accepted message. -/
theorem Pair.recv_step (h : w.step K A transcript a = some w') (r : ChannelRole) :
    ((w'.ends r).opened = (w.ends r).opened ∧
      (w'.ends r).channel.nextRecv = (w.ends r).channel.nextRecv) ∨
    ∃ message, a = .feed r message := by
  cases a with
  | call role plaintext =>
    cases h
    left
    by_cases hr : r = role
    · subst hr
      simp
    · simp [hr]
  | move role index m =>
    obtain ⟨c, ch', pc, log, hc, hmoved, rfl⟩ := Pair.step_move h
    left
    by_cases hr : r = role
    · subst hr
      have hch := hmoved.channel_eq
      simp only [Function.update_self, true_and]
      rw [hch]
    · simp [hr]
  | feed role message =>
    by_cases hr : r = role
    · subst hr
      exact .inr ⟨message, rfl⟩
    · left
      rcases Pair.step_feed h with rfl | ⟨plaintext, ciphertext, -, -, -, rfl⟩
      · exact ⟨rfl, rfl⟩
      · simp [hr]
  | elsewhere shared' transcript' role sequence plaintext =>
    obtain ⟨-, ch, -, rfl⟩ := Pair.step_elsewhere h
    exact .inl ⟨rfl, rfl⟩

end PairSteps

/-! ## The receive side -/

/-- Every recorded encryption under a key of the session belongs to a frame of the end that owns
the key; each end has opened as many messages as its counter says, and the `i`-th one is what the
peer sealed under sequence number `i`. -/
structure Pair.Delivered {A : Aead} (w : Pair A) : Prop where
  recorded : ∀ p ∈ w.performed, ∀ r, p.key = (w.ends r).channel.sendKey →
    ∃ s, p.nonce = nonce s ∧ (w.ends r).Sealed s p.msg ((header s).bytes ++ p.ciphertext)
  counted : ∀ r, (w.ends r).opened.length = (w.ends r).channel.nextRecv.toNat
  inOrder : ∀ r i m, (w.ends r).opened[i]? = some m →
    ∃ s f, s.toNat = i ∧ (w.ends r.peer).Sealed s m f

section RecvSide

variable {K : Kdf} {A : Aead} {shared transcript : Bytes} {w w' : Pair A} {a : PairAction}

/-- A recorded encryption was recorded before, or belongs to a frame just made, or was made by a
session with another transcript. -/
theorem Pair.performed_step (h : w.step K A transcript a = some w') {p : Performed A}
    (hp : p ∈ w'.performed) :
    p ∈ w.performed ∨
    (∃ r s, p.key = (w.ends r).channel.sendKey ∧ p.nonce = nonce s ∧
      (w'.ends r).Sealed s p.msg ((header s).bytes ++ p.ciphertext)) ∨
    ∃ shared' transcript' r s m ch, a = .elsewhere shared' transcript' r s m ∧
      transcript' ≠ transcript ∧
      SealedChannel.fromHandshakeSecret K shared' transcript' r = .ok ch ∧
      p.key = ch.sendKey := by
  cases a with
  | call role plaintext =>
    cases h
    exact .inl hp
  | move role index m =>
    obtain ⟨c, ch', pc, log, hc, hmoved, rfl⟩ := Pair.step_move h
    rcases mem_append.1 hp with hold | hnew
    · exact .inl hold
    · rw [mem_toList] at hnew
      cases hmoved with
      | sealed sequence frame hpc hseal =>
        obtain ⟨hkey, hnonce, hmsg, hframe⟩ := performedBy_eq_some hnew
        have hf : frame = (header sequence).bytes ++ p.ciphertext :=
          Except.ok.inj (hseal.symm.trans hframe)
        refine .inr (.inl ⟨role, sequence, hkey, hnonce, ?_⟩)
        rw [hmsg, ← hf]
        refine ⟨index, ?_⟩
        simp only [Function.update_self]
        exact slot_set hc
      | load | exhausted | retry | claim | encryptFailed => simp at hnew
  | feed role message =>
    rcases Pair.step_feed h with rfl | ⟨plaintext, ciphertext, -, -, -, rfl⟩
    · exact .inl hp
    · exact .inl hp
  | elsewhere shared' transcript' role sequence plaintext =>
    obtain ⟨hne, ch, hch, rfl⟩ := Pair.step_elsewhere h
    rcases mem_append.1 hp with hold | hnew
    · exact .inl hold
    · rw [mem_toList] at hnew
      exact .inr (.inr ⟨shared', transcript', role, sequence, plaintext, ch, rfl, hne, hch,
        (performedBy_eq_some hnew).1⟩)

/-- Every step on which the primitives behave ideally keeps the receive invariant. -/
theorem Pair.Delivered.step (hdel : w.Delivered) (hinv : w.Inv K A shared transcript)
    (hlabels : KeysDiffer K shared transcript shared transcript)
    (hideal : w.Ideal K A shared transcript a) (h : w.step K A transcript a = some w') :
    w'.Delivered where
  recorded := by
    intro p hp r hkey
    rw [hinv.sendKey_step h] at hkey
    rcases Pair.performed_step h hp with hold | ⟨r', s, hkey', hnonce, hsealed⟩ |
      ⟨shared', transcript', r', s, m, ch, rfl, hne, hch, hkey'⟩
    · obtain ⟨s, hnonce, hsealed⟩ := hdel.recorded p hold r hkey
      exact ⟨s, hnonce, Pair.sealed_step h hsealed⟩
    · rcases ChannelRole.eq_or_eq_peer r r' with rfl | rfl
      · exact ⟨s, hnonce, hsealed⟩
      · exact absurd (hkey.symm.trans hkey') (hinv.sendKey_ne hlabels r)
    · -- the other session's key is not one of ours
      have hother := (SealedChannel.fromHandshakeSecret_eq_ok.1 hch).1
      refine absurd ?_ (hideal r r' fun heq => hne (Prod.mk.inj heq).1.symm)
      rw [hinv.sendKey r, hother, ← hkey, ← hkey']
  counted := by
    intro r
    rcases Pair.recv_step h r with ⟨hopened, hnext⟩ | ⟨message, rfl⟩
    · rw [hopened, hnext]
      exact hdel.counted r
    · rcases Pair.step_feed h with rfl | ⟨plaintext, ciphertext, -, hmax, -, rfl⟩
      · exact hdel.counted r
      · simp only [Function.update_self, length_append, length_singleton,
          toNat_succ_of_ne_u64Max hmax, hdel.counted r]
  inOrder := by
    intro r i m hm
    rcases Pair.recv_step h r with ⟨hopened, -⟩ | ⟨message, rfl⟩
    · rw [hopened] at hm
      obtain ⟨s, f, hs, hsealed⟩ := hdel.inOrder r i m hm
      exact ⟨s, f, hs, Pair.sealed_step h hsealed⟩
    · have hkeep : ∀ {i m}, (w.ends r).opened[i]? = some m →
          ∃ s f, s.toNat = i ∧ (w'.ends r.peer).Sealed s m f := by
        intro i m hm
        obtain ⟨s, f, hs, hsealed⟩ := hdel.inOrder r i m hm
        exact ⟨s, f, hs, Pair.sealed_step h hsealed⟩
      rcases Pair.step_feed h with rfl | ⟨plaintext, ciphertext, rfl, hmax, hdec, hw'⟩
      · exact hdel.inOrder r i m hm
      · have hopened : (w'.ends r).opened = (w.ends r).opened ++ [plaintext] := by
          rw [hw']
          simp
        rw [hopened, getElem?_append] at hm
        split at hm
        · exact hkeep hm
        · rename_i hlen
          rw [getElem?_singleton] at hm
          split at hm
          · -- the message just accepted: its ciphertext was recorded, so the peer sealed it
            rename_i hzero
            cases hm
            simp only [Pair.Ideal, ← length_header (w.ends r).channel.nextRecv, drop_left,
              take_left] at hideal
            obtain ⟨p, hp, hkey, hnonce, -, -, hmsg⟩ := hideal.exists_performed hdec
            rw [hinv.recvKey r] at hkey
            obtain ⟨s, hs, hsealed⟩ := hdel.recorded p hp r.peer hkey
            have hseq : s = (w.ends r).channel.nextRecv := nonce_inj (hs.symm.trans hnonce)
            refine ⟨s, _, ?_, Pair.sealed_step h (hmsg ▸ hsealed)⟩
            rw [hseq, ← hdel.counted r]
            omega
          · simp at hm

end RecvSide

end RivetLink.Crypto
