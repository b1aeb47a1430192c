import Mathlib.Data.List.Basic
import RivetLink.Crypto.SealedPair

/-!
# Stream integrity and nonce uniqueness of sealed channels

The results about a pair of sealed channels, over every run from a fresh pair.

* `opened_prefix_sealedInOrder`: what an end has opened is, at every moment and whatever is fed to
  it, a prefix of what its peer has sealed, in the order of the sequence numbers; a rejected
  message changes nothing, and the next frame in order is accepted. The cipher and the key
  derivation are assumed ideal along the run (`Pair.Ideal`).
* `sealed_nonces_unique`: no two calls encrypt under one key and nonce, in either direction; the
  send counter does not go down; once it has reached its maximum no call gets a number any more;
  and every frame that was issued is accepted when its turn comes. This one needs no assumption on
  the cipher.
-/

namespace RivetLink.Crypto

open List RivetLink.Foundation
open Option hiding sequence

/-! ## The stream of an end -/

/-- The plaintext that was sealed under a sequence number. -/
def Endpoint.plaintextAt (e : Endpoint) (n : Nat) : Option Bytes :=
  e.calls.findSome? fun c =>
    match c.pc with
    | .sealed sequence _ => if sequence.toNat = n then some c.plaintext else none
    | _ => none

/-- What an end has sealed, ordered by sequence number. -/
def Endpoint.sealedInOrder (e : Endpoint) : List Bytes :=
  (List.range e.channel.nextSend.toNat).filterMap e.plaintextAt

/-- A list whose `i`-th entry is the value of `f` at `i` is a prefix of the values of `f` in
order. -/
theorem isPrefix_filterMap_range {α : Type} {f : Nat → Option α} {l : List α} {n : Nat}
    (hlen : l.length ≤ n) (h : ∀ i a, l[i]? = some a → f i = some a) :
    l <+: (List.range n).filterMap f := by
  have hall : (List.range l.length).filterMap f = l := by
    clear hlen
    induction l using List.reverseRecOn with
    | nil => rfl
    | append_singleton l a ih =>
      have hl : ∀ i b, l[i]? = some b → f i = some b := fun i b hb =>
        h i b ((getElem?_append_left (lt_of_slot hb)).trans hb)
      have ha : f l.length = some a := h l.length a (by simp)
      rw [length_append, length_singleton, range_succ, filterMap_append,
        ih hl]
      simp [ha]
  obtain ⟨k, rfl⟩ := Nat.exists_eq_add_of_le hlen
  rw [range_add, filterMap_append, hall]
  exact prefix_append _ _

variable {A : Aead} {e : Endpoint} {s : UInt64}

/-- Under the invariant the plaintext of a sequence number is that of its frame. -/
theorem Endpoint.SendInv.plaintextAt_eq (hinv : e.SendInv A) {m f : Bytes}
    (hsealed : e.Sealed s m f) : e.plaintextAt s.toNat = some m := by
  obtain ⟨i, hi⟩ := hsealed
  cases hfind : e.plaintextAt s.toNat with
  | none =>
    have hnone := findSome?_eq_none_iff.1 hfind _ (mem_of_getElem? hi)
    simp at hnone
  | some m' =>
    obtain ⟨d, hd, hval⟩ := exists_of_findSome?_eq_some hfind
    obtain ⟨j, hj⟩ := getElem?_of_mem hd
    split at hval
    · rename_i s' f' hpc
      split at hval
      · rename_i hs
        have hs' : d.pc.sequence? = some s := by
          rw [hpc, UInt64.toNat_inj.1 hs]
          rfl
        obtain rfl := hinv.distinct hj hi hs' rfl
        rw [hi] at hj
        cases hj
        exact hval.symm
      · simp at hval
    · simp at hval

theorem Endpoint.SendInv.sealed_lt (hinv : e.SendInv A) {m f : Bytes} (hsealed : e.Sealed s m f) :
    s.toNat < e.channel.nextSend.toNat := by
  obtain ⟨i, hi⟩ := hsealed
  exact UInt64.lt_iff_toNat_lt.1 (hinv.lt_nextSend hi rfl)

theorem ne_u64Max_of_lt {n : UInt64} (h : s.toNat < n.toNat) : s ≠ u64Max := by
  rintro rfl
  have hval : u64Max.toNat = 2 ^ 64 - 1 := by decide
  have hn := n.toNat_lt
  omega

section Runs

variable {K : Kdf} {A : Aead} {shared transcript : Bytes} {w₀ w w' : Pair A}
  {acts : List PairAction}

/-- The invariant of the send side holds along every run. -/
theorem Pair.inv_of_run (hnew : Pair.new K A shared transcript = .ok w₀)
    (hrun : runFrom (Pair.step K A transcript) w₀ acts = some w) :
    w.Inv K A shared transcript :=
  invariant_of_step (fun _ _ _ hinv h => hinv.step h) (Pair.inv_new hnew).1 hrun

/-- The invariant of the receive side holds along every run on which the primitives are ideal. -/
theorem Pair.delivered_of_run (hnew : Pair.new K A shared transcript = .ok w₀)
    (hlabels : KeysDiffer K shared transcript shared transcript)
    (hideal : RunMeets (Pair.step K A transcript) (Pair.Ideal K A shared transcript) w₀ acts)
    (hrun : runFrom (Pair.step K A transcript) w₀ acts = some w) : w.Delivered := by
  obtain ⟨hinv, hlog, hends⟩ := Pair.inv_new hnew
  have hstart : w₀.Delivered := by
    refine ⟨?_, ?_, ?_⟩
    · simp [hlog]
    · intro r
      obtain ⟨-, hopened, -, hnext⟩ := hends r
      rw [hopened, hnext]
      rfl
    · intro r i m hm
      obtain ⟨-, hopened, -, -⟩ := hends r
      simp [hopened] at hm
  have hboth := invariant_of_guardedStep
    (I := fun w => w.Inv K A shared transcript ∧ w.Delivered)
    (fun _ _ _ hi hg h => ⟨hi.1.step h, hi.2.step hi.1 hlabels hg h⟩) ⟨hinv, hstart⟩ hideal hrun
  exact hboth.2

/-- The peer's frame under the expected sequence number is accepted. -/
theorem Pair.Inv.open_sealed (hinv : w.Inv K A shared transcript) {r : ChannelRole} {m f : Bytes}
    (hsealed : (w.ends r.peer).Sealed s m f) :
    SealedChannel.open A { (w.ends r).channel with nextRecv := s } f =
      (.ok m, { (w.ends r).channel with nextRecv := s + 1 }) := by
  have hlt := (hinv.send r.peer).sealed_lt hsealed
  have hhash := (hinv.bindingHash r).trans (hinv.bindingHash r.peer).symm
  exact SealedChannel.open_sealClaimed (hinv.recvKey r) hhash rfl (ne_u64Max_of_lt hlt)
    ((hinv.send r.peer).frame hsealed)

/-- Stream integrity. In every run of a fresh pair, at either end: the opened plaintexts are a
prefix of what the peer has sealed, ordered by sequence number; their number is the receive
counter, and the `i`-th one comes from the one call that holds sequence number `i`; a rejected
message leaves the channel as it was; and the peer's frame under the expected number is accepted. -/
theorem opened_prefix_sealedInOrder (hnew : Pair.new K A shared transcript = .ok w₀)
    (hlabels : KeysDiffer K shared transcript shared transcript)
    (hideal : RunMeets (Pair.step K A transcript) (Pair.Ideal K A shared transcript) w₀ acts)
    (hrun : runFrom (Pair.step K A transcript) w₀ acts = some w) (r : ChannelRole) :
    (w.ends r).opened <+: (w.ends r.peer).sealedInOrder ∧
    (w.ends r).opened.length = (w.ends r).channel.nextRecv.toNat ∧
    (∀ i m, (w.ends r).opened[i]? = some m → ∃ (j : Nat) (s : UInt64) (f : Bytes), s.toNat = i ∧
      (w.ends r.peer).calls[j]? = some ⟨m, .sealed s f⟩ ∧
      ∀ (k : Nat) (d : SealCall), (w.ends r.peer).calls[k]? = some d →
        d.pc.sequence? = some s → k = j) ∧
    (∀ message e, ((w.ends r).channel.open A message).1 = .error e →
      ((w.ends r).channel.open A message).2 = (w.ends r).channel) ∧
    (∀ m f, (w.ends r.peer).Sealed (w.ends r).channel.nextRecv m f →
      (w.ends r).channel.open A f =
        (.ok m, { (w.ends r).channel with nextRecv := (w.ends r).channel.nextRecv + 1 })) := by
  have hinv := Pair.inv_of_run hnew hrun
  have hdel := Pair.delivered_of_run hnew hlabels hideal hrun
  have hsend := hinv.send r.peer
  refine ⟨isPrefix_filterMap_range ?_ ?_, hdel.counted r, ?_, ?_, ?_⟩
  · -- the last accepted number has been claimed by the peer
    by_contra hlt
    push Not at hlt
    obtain ⟨s, f, hs, hsealed⟩ := hdel.inOrder r (w.ends r.peer).channel.nextSend.toNat _
      (getElem?_eq_getElem hlt)
    have hbelow := hsend.sealed_lt hsealed
    omega
  · intro i m hm
    obtain ⟨s, f, rfl, hsealed⟩ := hdel.inOrder r i m hm
    exact hsend.plaintextAt_eq hsealed
  · intro i m hm
    obtain ⟨s, f, hs, j, hj⟩ := hdel.inOrder r i m hm
    exact ⟨j, s, f, hs, hj, fun k d hd hds => hsend.distinct hd hj hds rfl⟩
  · intro message e he
    exact SealedChannel.open_error he
  · intro m f hsealed
    exact hinv.open_sealed hsealed

end Runs

/-- The frame that an end of a small session makes of a plaintext. -/
def sampleFrame (transcript : Bytes) (role : ChannelRole) (sequence : UInt64) (plaintext : Bytes) :
    Bytes :=
  match SealedChannel.fromHandshakeSecret Kdf.truncating [7] transcript role with
  | .ok ch => (ch.sealClaimed Aead.transparent sequence plaintext).toOption.getD []
  | .error _ => []

/-- Two calls race for the first sequence number and the later call wins; the responder is fed the
second frame first, a reflected frame, a frame of another session, a truncated frame, and then both
frames in order with a replay between them. -/
def sampleRun : List PairAction :=
  [.call .initiator [1], .call .initiator [2], .call .responder [3],
    .move .initiator 0 (.load 0), .move .initiator 1 (.load 0),
    .move .initiator 1 (.compareExchange (some 0)), .move .initiator 1 (.compareExchange none),
    .move .initiator 0 (.compareExchange (some 1)), .move .initiator 0 (.compareExchange none),
    .move .initiator 0 .encrypt, .move .initiator 1 .encrypt,
    .move .responder 0 (.load 0), .move .responder 0 (.compareExchange none),
    .move .responder 0 .encrypt, .elsewhere [7] [9] .initiator 0 [66],
    .feed .responder (sampleFrame [8] .initiator 1 [1]),
    .feed .responder (sampleFrame [8] .responder 0 [3]),
    .feed .responder (sampleFrame [9] .initiator 0 [66]),
    .feed .responder ((sampleFrame [8] .initiator 0 [2]).take 20),
    .feed .responder (sampleFrame [8] .initiator 0 [2]),
    .feed .responder (sampleFrame [8] .initiator 0 [2]),
    .feed .responder (sampleFrame [8] .initiator 1 [1])]

/-- A fresh pair with the small instances. -/
def samplePair : Pair Aead.transparent :=
  (Pair.new Kdf.truncating Aead.transparent [7] [8]).toOption.get (by decide)

theorem new_samplePair : Pair.new Kdf.truncating Aead.transparent [7] [8] = .ok samplePair := rfl

def sampleOutcome : Pair Aead.transparent :=
  (runFrom (Pair.step Kdf.truncating Aead.transparent [8]) samplePair sampleRun).get
    (by decide +kernel)

theorem run_sampleOutcome :
    runFrom (Pair.step Kdf.truncating Aead.transparent [8]) samplePair sampleRun =
      some sampleOutcome := (some_get _).symm

/-- The run meets the assumptions, and the responder ends with both plaintexts in order. -/
theorem opened_prefix_sealedInOrder_sampleRun :
    (sampleOutcome.ends .responder).opened = [[2], [1]] ∧
    (sampleOutcome.ends .responder).opened <+: (sampleOutcome.ends .initiator).sealedInOrder :=
  ⟨by decide +kernel,
    (opened_prefix_sealedInOrder new_samplePair (by decide +kernel) (by decide +kernel)
      run_sampleOutcome .responder).1⟩

/-! ## Nonces -/

/-- A call that has not claimed a number and has not returned. -/
def SealPc.Waiting (pc : SealPc) : Prop := pc = .start ∨ ∃ v, pc = .loaded v

section Nonces

variable {K : Kdf} {A : Aead} {shared transcript : Bytes} {w₀ w w' : Pair A}
  {acts : List PairAction} {a : PairAction}

/-- No step lowers a send counter. -/
theorem Pair.nextSend_step (h : w.step K A transcript a = some w') (r : ChannelRole) :
    (w.ends r).channel.nextSend ≤ (w'.ends r).channel.nextSend := by
  cases a with
  | call role plaintext =>
    cases h
    by_cases hr : r = role
    · subst hr
      simp
    · simp [hr]
  | move role index m =>
    obtain ⟨c, ch', pc, log, hc, hmoved, rfl⟩ := Pair.step_move h
    by_cases hr : r = role
    · subst hr
      simpa using hmoved.nextSend_le
    · simp [hr]
  | feed role message =>
    rcases Pair.step_feed h with rfl | ⟨plaintext, ciphertext, -, -, -, rfl⟩
    · exact UInt64.le_refl _
    · by_cases hr : r = role
      · subst hr
        simp
      · simp [hr]
  | elsewhere shared' transcript' role sequence plaintext =>
    obtain ⟨-, ch, -, rfl⟩ := Pair.step_elsewhere h
    exact UInt64.le_refl _

theorem Pair.nextSend_le_of_run (hrun : runFrom (Pair.step K A transcript) w acts = some w')
    (r : ChannelRole) : (w.ends r).channel.nextSend ≤ (w'.ends r).channel.nextSend :=
  relation_of_step (I := fun _ => True)
    (R := fun w w' : Pair A => (w.ends r).channel.nextSend ≤ (w'.ends r).channel.nextSend)
    (fun _ => UInt64.le_refl _) (fun _ _ _ => UInt64.le_trans) (fun _ _ _ _ _ => trivial)
    (fun _ _ _ _ h => Pair.nextSend_step h r) trivial hrun

theorem eq_u64Max_of_le {n : UInt64} (h : u64Max ≤ n) : n = u64Max := by
  apply UInt64.toNat_inj.1
  have hval : u64Max.toNat = 2 ^ 64 - 1 := by decide
  have hle := UInt64.le_iff_toNat_le.1 h
  have hn := n.toNat_lt
  omega

/-- With the counter at its maximum, a waiting call can only fail or go on waiting. -/
theorem SealCall.Moved.exhausted_of_waiting {ch ch' : SealedChannel} {c : SealCall} {pc : SealPc}
    {log : Option (Performed A)} (h : c.Moved A ch ch' pc log) (hmax : ch.nextSend = u64Max)
    (hpc : c.pc.Waiting ∨ c.pc = .failed .nonceExhausted) :
    pc.Waiting ∨ pc = .failed .nonceExhausted := by
  have hclaimed : ∀ s, c.pc ≠ .claimed s := by
    intro s hs
    rcases hpc with (hstart | ⟨v, hloaded⟩) | hfailed
    · simp [hs] at hstart
    · simp [hs] at hloaded
    · simp [hs] at hfailed
  cases h with
  | load value => exact .inl (.inr ⟨value, rfl⟩)
  | exhausted => exact .inr rfl
  | retry sequence current => exact .inl (.inr ⟨current, rfl⟩)
  | claim _ hne => exact absurd hmax hne
  | sealed sequence _ hs | encryptFailed sequence _ hs => exact absurd hs (hclaimed sequence)

/-- With the counter at its maximum, every step leaves the calls of a set of indices, which holds
all those not in use yet, waiting or failed for lack of a number. -/
theorem Pair.exhausted_step {r : ChannelRole} {S : Nat → Prop}
    (hmax : (w.ends r).channel.nextSend = u64Max)
    (hcalls : ∀ (i : Nat) (c : SealCall), S i → (w.ends r).calls[i]? = some c →
      c.pc.Waiting ∨ c.pc = .failed .nonceExhausted) (h : w.step K A transcript a = some w') :
    ∀ (i : Nat) (c : SealCall), S i → (w'.ends r).calls[i]? = some c →
      c.pc.Waiting ∨ c.pc = .failed .nonceExhausted := by
  intro i d hi hd
  cases a with
  | call role plaintext =>
    cases h
    by_cases hr : r = role
    · subst hr
      simp only [Function.update_self] at hd
      rcases of_slot_snoc hd with hold | ⟨-, rfl⟩
      · exact hcalls i d hi hold
      · exact .inl (.inl rfl)
    · exact hcalls i d hi (by simpa [hr] using hd)
  | move role index m =>
    obtain ⟨c, ch', pc, log, hc, hmoved, rfl⟩ := Pair.step_move h
    by_cases hr : r = role
    · subst hr
      simp only [Function.update_self] at hd
      rcases of_slot_set hd with ⟨rfl, rfl⟩ | ⟨-, hold⟩
      · exact hmoved.exhausted_of_waiting hmax (hcalls i c hi hc)
      · exact hcalls i d hi hold
    · exact hcalls i d hi (by simpa [hr] using hd)
  | feed role message =>
    rcases Pair.step_feed h with rfl | ⟨plaintext, ciphertext, -, -, -, rfl⟩
    · exact hcalls i d hi hd
    · by_cases hr : r = role
      · subst hr
        exact hcalls i d hi (by simpa using hd)
      · exact hcalls i d hi (by simpa [hr] using hd)
  | elsewhere shared' transcript' role sequence plaintext =>
    obtain ⟨-, ch, -, rfl⟩ := Pair.step_elsewhere h
    exact hcalls i d hi hd

/-- Once a send counter is at its maximum it stays there, and a call that has no number by then, or
is made later, never gets one: it can only fail for that reason. -/
theorem Pair.exhausted_of_run {r : ChannelRole} (hmax : (w.ends r).channel.nextSend = u64Max)
    (hrun : runFrom (Pair.step K A transcript) w acts = some w') :
    (w'.ends r).channel.nextSend = u64Max ∧
    ∀ (i : Nat) (c' : SealCall),
      (∀ c : SealCall, (w.ends r).calls[i]? = some c → c.pc.Waiting) →
      (w'.ends r).calls[i]? = some c' → c'.pc.Waiting ∨ c'.pc = .failed .nonceExhausted := by
  refine invariant_of_step
    (I := fun v : Pair A => (v.ends r).channel.nextSend = u64Max ∧
      ∀ (i : Nat) (c' : SealCall),
        (∀ c : SealCall, (w.ends r).calls[i]? = some c → c.pc.Waiting) →
        (v.ends r).calls[i]? = some c' → c'.pc.Waiting ∨ c'.pc = .failed .nonceExhausted)
    ?_ ⟨hmax, fun i c' hi hc' => .inl (hi c' hc')⟩ hrun
  rintro s a t ⟨hs, hcalls⟩ hstep
  refine ⟨eq_u64Max_of_le ?_, ?_⟩
  · rw [← hs]
    exact Pair.nextSend_step hstep r
  · exact Pair.exhausted_step hs hcalls hstep

/-- The channel opens a sequence of messages one after the other. -/
def SealedChannel.openAll (A : Aead) (ch : SealedChannel) :
    List Bytes → List (CryptoResult Bytes) × SealedChannel
  | [] => ([], ch)
  | message :: messages =>
    let out := ch.open A message
    let rest := SealedChannel.openAll A out.2 messages
    (out.1 :: rest.1, rest.2)

/-- The peer's frames of consecutive sequence numbers are all accepted, from whichever number the
receiver expects, and its counter moves by their number. -/
theorem Pair.Inv.openAll_sealed (hinv : w.Inv K A shared transcript) {r : ChannelRole} :
    ∀ (stream : List (Bytes × Bytes)) (n : UInt64),
      (∀ (k : Nat) (m f : Bytes), stream[k]? = some (m, f) →
        ∃ s : UInt64, s.toNat = n.toNat + k ∧ (w.ends r.peer).Sealed s m f) →
      (SealedChannel.openAll A { (w.ends r).channel with nextRecv := n } (stream.map (·.2))).1 =
          stream.map (fun p => .ok p.1) ∧
        (SealedChannel.openAll A { (w.ends r).channel with nextRecv := n }
          (stream.map (·.2))).2.nextRecv.toNat = n.toNat + stream.length
  | [], n, _ => ⟨rfl, rfl⟩
  | (m, f) :: stream, n, h => by
      obtain ⟨s, hs, hsealed⟩ := h 0 m f rfl
      obtain rfl : s = n := UInt64.toNat_inj.1 hs
      have hmax := ne_u64Max_of_lt ((hinv.send r.peer).sealed_lt hsealed)
      have hsucc := toNat_succ_of_ne_u64Max hmax
      have hopen := hinv.open_sealed hsealed
      obtain ⟨hall, hcount⟩ := Pair.Inv.openAll_sealed hinv (r := r) stream (s + 1) (by
        intro k m' f' hk
        obtain ⟨t, ht, hsealed'⟩ := h (k + 1) m' f' hk
        exact ⟨t, by omega, hsealed'⟩)
      simp only [map_cons, SealedChannel.openAll, hopen, length_cons]
      exact ⟨by rw [hall], hcount.trans (by omega)⟩

/-- Nonce uniqueness. In every run of a fresh pair: two different calls with a sequence number, on
one end or on both, do not use the same key and nonce; send counters only go up; at the maximum
every call without a number fails and stays without one, in every continuation; and the frames of
consecutive sequence numbers are accepted one after the other, without the receive counter
running out. -/
theorem sealed_nonces_unique (hnew : Pair.new K A shared transcript = .ok w₀)
    (hlabels : KeysDiffer K shared transcript shared transcript)
    (hrun : runFrom (Pair.step K A transcript) w₀ acts = some w) :
    (∀ (r r' : ChannelRole) (i j : Nat) (c d : SealCall) (s t : UInt64),
      (w.ends r).calls[i]? = some c → (w.ends r').calls[j]? = some d →
      c.pc.sequence? = some s → d.pc.sequence? = some t → (r, i) ≠ (r', j) →
      ((w.ends r).channel.sendKey, nonce s) ≠ ((w.ends r').channel.sendKey, nonce t)) ∧
    (∀ r acts' w', runFrom (Pair.step K A transcript) w acts' = some w' →
      (w.ends r).channel.nextSend ≤ (w'.ends r).channel.nextSend) ∧
    (∀ r, (w.ends r).channel.nextSend = u64Max →
      (∀ m, (w.ends r).channel.seal A m = (.error .nonceExhausted, (w.ends r).channel)) ∧
      ∀ acts' w', runFrom (Pair.step K A transcript) w acts' = some w' →
        (w'.ends r).channel.nextSend = u64Max ∧
        ∀ (i : Nat) (c' : SealCall),
          (∀ c : SealCall, (w.ends r).calls[i]? = some c → c.pc.Waiting) →
          (w'.ends r).calls[i]? = some c' →
          c'.pc.Waiting ∨ c'.pc = .failed .nonceExhausted) ∧
    (∀ (r : ChannelRole) (stream : List (Bytes × Bytes)) (n : UInt64),
      (∀ (k : Nat) (m f : Bytes), stream[k]? = some (m, f) →
        ∃ s : UInt64, s.toNat = n.toNat + k ∧ (w.ends r.peer).Sealed s m f) →
      (SealedChannel.openAll A { (w.ends r).channel with nextRecv := n } (stream.map (·.2))).1 =
          stream.map (fun p => .ok p.1) ∧
        (SealedChannel.openAll A { (w.ends r).channel with nextRecv := n }
          (stream.map (·.2))).2.nextRecv.toNat = n.toNat + stream.length) := by
  have hinv := Pair.inv_of_run hnew hrun
  refine ⟨?_, ?_, ?_, ?_⟩
  · intro r r' i j c d s t hc hd hs ht hne heq
    obtain ⟨hkey, hnonce⟩ := Prod.mk.inj heq
    obtain rfl := nonce_inj hnonce
    rcases ChannelRole.eq_or_eq_peer r r' with rfl | rfl
    · exact hne (by rw [(hinv.send r').distinct hc hd hs ht])
    · exact hinv.sendKey_ne hlabels r hkey
  · intro r acts' w' hrun'
    exact Pair.nextSend_le_of_run hrun' r
  · intro r hmax
    exact ⟨SealedChannel.seal_exhausted hmax, fun acts' w' hrun' =>
      Pair.exhausted_of_run hmax hrun'⟩
  · intro r stream n hstream
    exact hinv.openAll_sealed stream n hstream

end Nonces

/-- In the sample run the two frames of the initiator are accepted by a fresh responder, and its
two calls use different nonces. -/
theorem sealed_nonces_unique_sampleRun :
    nonce 1 ≠ nonce 0 ∧
    (SealedChannel.openAll Aead.transparent
      { (sampleOutcome.ends .responder).channel with nextRecv := 0 }
      [sampleFrame [8] .initiator 0 [2], sampleFrame [8] .initiator 1 [1]]).1 =
        [.ok [2], .ok [1]] := by
  obtain ⟨hnonce, -, -, hopen⟩ :=
    sealed_nonces_unique new_samplePair (by decide +kernel) run_sampleOutcome
  constructor
  · intro heq
    refine hnonce .initiator .initiator 0 1 ⟨[1], .sealed 1 (sampleFrame [8] .initiator 1 [1])⟩
      ⟨[2], .sealed 0 (sampleFrame [8] .initiator 0 [2])⟩ 1 0 (by decide +kernel)
      (by decide +kernel) rfl rfl (by decide) (by rw [heq])
  · refine (hopen .responder [([2], sampleFrame [8] .initiator 0 [2]),
      ([1], sampleFrame [8] .initiator 1 [1])] 0 ?_).1
    intro k m f hk
    match k with
    | 0 =>
      cases hk
      exact ⟨0, rfl, 1, by decide +kernel⟩
    | 1 =>
      cases hk
      exact ⟨1, rfl, 0, by decide +kernel⟩
    | k + 2 => simp at hk

end RivetLink.Crypto
