import RivetLink.Server.SingleUse

/-!
# Revoking a family

When a revoked token is presented, the server revokes every token of its family. `revoke_family`
reaches the rows that exist at that moment. A rotation that has found its token valid, and has not
inserted the successor yet, inserts an unrevoked one afterwards, and the family lives on
(`revoked_family_lives_on`).

`Dead` says that this cannot happen any more: the family has no unrevoked token, and no rotation
that could insert one. It is kept by every action (`Dead.step`), so if no such rotation is in
progress at the moment of the revocation, the revocation is final (`revocation_final`).
-/

namespace RivetLink.Server

open List Option RivetLink.Foundation

namespace TokenStore

variable {expirySecs : Time} {s t u : TokenStore} {a : Action} {i : Nat} {f : Uuid}

/-- No rotation of the family is between finding its token valid and inserting the successor. -/
def NonePending (s : TokenStore) (f : Uuid) : Prop :=
  ∀ r ∈ s.requests, ∀ row ∈ r.pc.rotating, r.pc.successor = none → row.familyId ≠ f

instance (s : TokenStore) (f : Uuid) : Decidable (s.NonePending f) := by
  unfold NonePending
  infer_instance

theorem NonePending.family_ne {row : RefreshTokenRow} (h : s.NonePending f)
    (hrow : s.rotating i = some row) (hnone : s.successor i = none) : row.familyId ≠ f := by
  obtain ⟨r, hr, hpc⟩ := bind_eq_some_iff.1 hrow
  rw [successor, hr] at hnone
  exact h r (mem_of_getElem? hr) row hpc hnone

/-- The family was issued, none of its tokens is unrevoked, and no rotation is about to insert
one. -/
structure Dead (s : TokenStore) (f : Uuid) : Prop where
  issued : ∃ e ∈ s.issued, e.2 = f
  revoked : ∀ row ∈ s.tokens, row.revokedAt = none → row.familyId ≠ f
  nonePending : ∀ i row, s.rotating i = some row → s.successor i = none → row.familyId ≠ f

/-- A request that moves leaves no insertion pending, if it does not at its new place. -/
theorem nonePending_of_moved {pc : Pc} (hmoved : MovedTo s t i pc)
    (hpending : ∀ j row, s.rotating j = some row → s.successor j = none → row.familyId ≠ f)
    (hpc : ∀ row, pc.rotating = some row → pc.successor = none → row.familyId ≠ f) :
    ∀ j row, t.rotating j = some row → t.successor j = none → row.familyId ≠ f := by
  intro j row hj hnone
  rcases hmoved.rotating_or hj with ⟨rfl, hrow⟩ | ⟨hji, hj⟩
  · exact hpc row hrow (by simpa [hmoved.successor] using hnone)
  · exact hpending j row hj (hmoved.successor_of_ne hji ▸ hnone)

/-- A dead family stays dead. -/
theorem Dead.step (hd : Dead s f) (h : s.step expirySecs a = some t) : Dead t f := by
  obtain ⟨e, he, hef⟩ := hd.issued
  cases step_effect h with
  | quiet hrotating hsuccessor hexchanged haccused hissued htokens =>
    refine ⟨⟨e, hissued ▸ he, hef⟩, fun row hrow hlive => ?_, fun j row hj hnone => ?_⟩
    · exact hd.revoked row (htokens.unrevoked row hrow hlive) hlive
    · exact hd.nonePending j row (hrotating j ▸ hj) (hsuccessor j ▸ hnone)
  | stop i pc hmoved hrotating hexchanged haccused hnew hissued htokens
  | finish i row replied pc hrow hmoved hrotating hexchanged haccused hissued htokens hdead =>
    refine ⟨⟨e, hissued ▸ he, hef⟩, fun row hrow hlive => ?_,
      nonePending_of_moved hmoved hd.nonePending (by simp [hrotating])⟩
    exact hd.revoked row (htokens.unrevoked row hrow hlive) hlive
  | start i r row hr hvalid hnone hmoved hissued htokens =>
    refine ⟨⟨e, hissued ▸ he, hef⟩, htokens ▸ hd.revoked,
      nonePending_of_moved hmoved hd.nonePending fun row' hpc _ => ?_⟩
    cases hpc
    obtain ⟨hrow, -, hlive⟩ := RefreshTokens.validateForRotation_eq_ok hvalid
    exact hd.revoked row hrow hlive
  | insert i row new org hrow hnone hmoved hfresh hfamily hissued htokens =>
    refine ⟨⟨e, hissued ▸ mem_append_left _ he, hef⟩, fun row' hrow' hlive => ?_,
      nonePending_of_moved hmoved hd.nonePending (by simp [Pc.successor])⟩
    rw [htokens] at hrow'
    rcases mem_append.1 hrow' with hrow' | hrow'
    · exact hd.revoked row' hrow' hlive
    · rw [mem_singleton.1 hrow', hfamily]
      exact hd.nonePending i row hrow hnone
  | login new userId hrequests hfresh hissued htokens =>
    refine ⟨⟨e, hissued ▸ mem_append_left _ he, hef⟩, fun row hrow hlive => ?_,
      fun j row hj hnone => ?_⟩
    · rw [htokens] at hrow
      rcases mem_append.1 hrow with hrow | hrow
      · exact hd.revoked row hrow hlive
      · rw [mem_singleton.1 hrow, ← hef]
        exact (hfresh e he).2.symm
    · rw [rotating, hrequests] at hj
      rw [successor, hrequests] at hnone
      exact hd.nonePending j row hj hnone

/-- What the statement does. -/
theorem revokeFamily_spec (haccused : s.accused i = some f)
    (h : s.step expirySecs (.request i .revokeFamily) = some t) :
    ∃ pc, MovedTo s t i pc ∧ pc.rotating = none ∧ t.issued = s.issued ∧
      t.tokens = (RefreshTokens.revokeFamily s.now f s.tokens).1 := by
  obtain ⟨r, hr, hpc⟩ := bind_eq_some_iff.1 haccused
  obtain ⟨r', hr', hadvance⟩ := bind_eq_some_iff.1 h
  cases hr.symm.trans hr'
  simp only [advance] at hadvance
  split at hadvance
  case h_2 => cases hadvance
  rename_i familyId hreused
  obtain rfl : familyId = f := by
    rw [hreused] at hpc
    exact some.inj hpc
  cases hadvance
  refine ⟨_, movedTo_goTo hr rfl, ?_, rfl, rfl⟩
  split <;> rfl

/-- Revoking a family of which no rotation is about to insert a token kills it. -/
theorem dead_of_revokeFamily (hs : Sound s) (haccused : s.accused i = some f)
    (hnone : s.NonePending f) (h : s.step expirySecs (.request i .revokeFamily) = some t) :
    Dead t f := by
  obtain ⟨e, he, hef⟩ := hs.accusedIssued i f haccused
  obtain ⟨pc, hmoved, hrotating, hissued, htokens⟩ := revokeFamily_spec haccused h
  refine ⟨⟨e, hissued ▸ he, hef⟩, fun row hrow hlive => ?_,
    nonePending_of_moved hmoved (fun _ _ => hnone.family_ne) (by simp [hrotating])⟩
  rw [htokens] at hrow
  exact RefreshTokens.family_ne_of_revokeFamily hrow hlive

/-- Seen from a state `t` in which the family is dead: only requests that had inserted their
successor, or had already succeeded, rotate or succeed with a token of the family. -/
structure After (t : TokenStore) (f : Uuid) (u : TokenStore) : Prop where
  dead : Dead u f
  rotating : ∀ i row, u.rotating i = some row → row.familyId = f →
    t.rotating i = some row ∧ (t.successor i).isSome = true
  exchanged : ∀ i row, u.exchanged i = some row → row.familyId = f →
    t.exchanged i = some row ∨ (t.successor i).isSome = true

theorem After.refl (hd : Dead t f) : After t f t where
  dead := hd
  rotating := fun i row hrow hfamily => by
    refine ⟨hrow, isSome_iff_ne_none.2 fun hnone => ?_⟩
    exact hd.nonePending i row hrow hnone hfamily
  exchanged := fun _ _ hrow _ => .inl hrow

theorem After.moved {u' : TokenStore} {pc : Pc} (ha : After t f u) (hdead : Dead u' f)
    (hmoved : MovedTo u u' i pc)
    (hrotating : ∀ row, pc.rotating = some row → row.familyId = f → u.rotating i = some row)
    (hexchanged : ∀ row, pc.exchanged = some row → row.familyId = f → u.rotating i = some row) :
    After t f u' := by
  refine ⟨hdead, fun j row hj hfamily => ?_, fun j row hj hfamily => ?_⟩
  · rcases hmoved.rotating_or hj with ⟨rfl, hpc⟩ | ⟨-, hj⟩
    · exact ha.rotating j row (hrotating row hpc hfamily) hfamily
    · exact ha.rotating j row hj hfamily
  · rcases hmoved.exchanged_or hj with ⟨rfl, hpc⟩ | ⟨-, hj⟩
    · exact .inr (ha.rotating j row (hexchanged row hpc hfamily) hfamily).2
    · exact ha.exchanged j row hj hfamily

theorem After.step {u' : TokenStore} (ha : After t f u) (h : u.step expirySecs a = some u') :
    After t f u' := by
  have hdead := ha.dead.step h
  cases step_effect h with
  | quiet hrotating hsuccessor hexchanged haccused hissued htokens =>
    exact ⟨hdead, fun j row hj => ha.rotating j row (hrotating j ▸ hj),
      fun j row hj => ha.exchanged j row (hexchanged j ▸ hj)⟩
  | stop i pc hmoved hrotating hexchanged haccused hnew hissued htokens =>
    exact ha.moved hdead hmoved (by simp [hrotating]) (by simp [hexchanged])
  | start i r row hr hvalid hnone hmoved hissued htokens =>
    refine ha.moved hdead hmoved (fun row' hpc hfamily => ?_) fun _ hpc => by cases hpc
    cases hpc
    obtain ⟨hrow, -, hlive⟩ := RefreshTokens.validateForRotation_eq_ok hvalid
    exact absurd hfamily (ha.dead.revoked row hrow hlive)
  | insert i row new org hrow hnone hmoved hfresh hfamily hissued htokens =>
    exact ha.moved hdead hmoved (fun _ hpc _ => hrow.trans hpc) fun _ hpc => by cases hpc
  | finish i row replied pc hrow hmoved hrotating hexchanged haccused hissued htokens hkilled =>
    refine ha.moved hdead hmoved (by simp [hrotating]) fun row' hpc _ => ?_
    obtain rfl := hexchanged row' hpc
    exact hrow
  | login new userId hrequests hfresh hissued htokens =>
    refine ⟨hdead, fun j row hj hfamily => ?_, fun j row hj hfamily => ?_⟩
    · rw [TokenStore.rotating, hrequests] at hj
      exact ha.rotating j row hj hfamily
    · rw [TokenStore.exchanged, hrequests] at hj
      exact ha.exchanged j row hj hfamily

/-- Revocation is final if, at the moment a family is revoked because of a replayed token, none of
its rotations is between finding its token valid and inserting the successor: in every state of
every run from then on, the family has no unrevoked token, and a request has succeeded with one of
its tokens only if it had succeeded, or had inserted its successor, before. -/
theorem revocation_final {acts acts' : List Action}
    (hrun : runFrom (step expirySecs) TokenStore.new acts = some s)
    (haccused : s.accused i = some f) (hnone : s.NonePending f)
    (hrevoke : s.step expirySecs (.request i .revokeFamily) = some t)
    (hrun' : runFrom (step expirySecs) t acts' = some u) :
    u.unrevoked f = [] ∧
    ∀ j row, u.exchanged j = some row → row.familyId = f →
      t.exchanged j = some row ∨ (t.successor j).isSome = true := by
  have hdead := dead_of_revokeFamily (sound_of_run hrun) haccused hnone hrevoke
  have hafter := invariant_of_step (I := After t f) (fun _ _ _ ha h => ha.step h)
    (After.refl hdead) hrun'
  refine ⟨eq_nil_iff_forall_not_mem.2 fun row hrow => ?_, hafter.exchanged⟩
  obtain ⟨hmem, hfamily, hlive⟩ := mem_unrevoked.1 hrow
  exact hafter.dead.revoked row hmem hlive hfamily

/-! ## Two revocations -/

/-- Token 1 is exchanged for token 2, and then presented again. Meanwhile token 2 may have been
found valid by another request. -/
def replayRun (racing : Bool) : List Action :=
  [sampleLogin, .arrive (sampleClaims 1), .request 0 .validate] ++ sampleRotation 0 2 ++
    [.arrive (sampleClaims 2), .arrive (sampleClaims 1)] ++
    (if racing then [.request 1 .validate] else []) ++ [.request 2 .validate]

/-- The state in which the replay has been noticed. -/
def replayed (racing : Bool) : TokenStore :=
  (runFrom (step 1000) TokenStore.new (replayRun racing)).get (by cases racing <;> decide +kernel)

def afterRevocation (racing : Bool) : TokenStore :=
  ((replayed racing).step 1000 (.request 2 .revokeFamily)).get (by cases racing <;> decide +kernel)

/-- The second request completes, and a third one presents its successor. -/
def raceRun : List Action :=
  sampleRotation 1 3 ++ [.arrive (sampleClaims 3), .request 3 .validate] ++ sampleRotation 3 4

def raceOutcome : TokenStore :=
  (runFrom (step 1000) (afterRevocation true) raceRun).get (by decide +kernel)

/-- A family that has been revoked because of a replay lives on: request 3 arrives afterwards and
succeeds with a token of the family. -/
theorem revoked_family_lives_on :
    runFrom (step 1000) TokenStore.new (replayRun true) = some (replayed true) ∧
    (replayed true).accused 2 = some (sampleUuid 50) ∧
    (replayed true).step 1000 (.request 2 .revokeFamily) = some (afterRevocation true) ∧
    (afterRevocation true).requests.length = 3 ∧
    runFrom (step 1000) (afterRevocation true) raceRun = some raceOutcome ∧
    (raceOutcome.exchanged 3).map (·.familyId) = some (sampleUuid 50) :=
  ⟨(some_get _).symm, by decide +kernel, (some_get _).symm, by decide +kernel,
    (some_get _).symm, by decide +kernel⟩

/-- Without the race, the second request presents its token after the revocation. -/
def lateRun : List Action := [.request 1 .validate, .request 1 .revokeFamily, .request 2 .audit]

/-- Without the race the family is dead. -/
theorem revocation_final_lateRun :
    ∃ u, runFrom (step 1000) (afterRevocation false) lateRun = some u ∧
      u.tokens.length = 2 ∧ u.unrevoked (sampleUuid 50) = [] :=
  ⟨(runFrom (step 1000) (afterRevocation false) lateRun).get (by decide +kernel),
    (some_get _).symm, by decide +kernel,
    (@revocation_final 1000 (replayed false) (afterRevocation false) _ 2 (sampleUuid 50)
      (replayRun false) lateRun (some_get _).symm (by decide +kernel) (by decide +kernel)
      (some_get _).symm (some_get _).symm).1⟩

end TokenStore

end RivetLink.Server
