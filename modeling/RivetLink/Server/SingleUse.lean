import RivetLink.Server.TokenRotation

/-!
# Refresh tokens are used once

A rotation finds its token unrevoked in one statement and revokes it in another, so two requests
with one token can both find it unrevoked and both succeed; the family then has two unrevoked tokens
(`double_exchange`).

`Undisturbed` excludes this. No token is found valid while a rotation of its family is in progress,
and no request stops between inserting the successor and revoking the old row. In every run whose
actions are undisturbed, every token is exchanged at most once, and a family without a rotation in
progress has at most one unrevoked token (`rotation_single_use`). `Exclusive` is the invariant.
-/

namespace RivetLink.Server

open List Option RivetLink.Foundation

namespace TokenStore

variable {expirySecs : Time} {s t : TokenStore} {a : Action} {i : Nat} {f : Uuid}
  {row : RefreshTokenRow}

def isRotating (s : TokenStore) (f : Uuid) : Bool :=
  s.requests.any fun r => r.pc.rotating.any (·.familyId = f)

theorem isRotating_of_rotating (h : s.rotating i = some row) :
    s.isRotating row.familyId = true := by
  obtain ⟨r, hr, hpc⟩ := bind_eq_some_iff.1 h
  exact any_eq_true.2 ⟨r, mem_of_getElem? hr, by simp [hpc]⟩

theorem rotating_of_isRotating (h : s.isRotating f = true) :
    ∃ i row, s.rotating i = some row ∧ row.familyId = f := by
  obtain ⟨r, hr, hpc⟩ := any_eq_true.1 h
  obtain ⟨i, hi⟩ := getElem?_of_mem hr
  obtain ⟨row, hrow, hfamily⟩ := (any_eq_true _ _).1 hpc
  exact ⟨i, row, by simp [rotating, hi, hrow], by simpa using hfamily⟩

/-- A request finds its token valid only while no rotation of its family is in progress, and does
not stop once it has inserted the successor. -/
def Undisturbed (s : TokenStore) : Action → Prop
  | .request i .validate => ∀ r ∈ s.requests[i]?,
      ∀ row ∈ (RefreshTokens.validateForRotation s.now r.claims.jti s.tokens).toOption,
        s.isRotating row.familyId = false
  | .request i (.abort _) => s.successor i = none
  | _ => True

instance (s : TokenStore) (a : Action) : Decidable (s.Undisturbed a) := by
  unfold Undisturbed
  split <;> infer_instance

/-- At most one rotation of a family is in progress. A token that was exchanged has no unrevoked row
and is not being rotated, and it was exchanged once. While a rotation is in progress, only its token
and its successor are unrevoked; while there is none, at most one token is. -/
structure Exclusive (s : TokenStore) : Prop where
  one : ∀ i j row row', s.rotating i = some row → s.rotating j = some row' →
    row.familyId = row'.familyId → i = j
  spent : ∀ i row, s.exchanged i = some row →
    ∀ row' ∈ s.tokens, row'.revokedAt = none → row'.jti ≠ row.jti
  unspent : ∀ i j row row', s.exchanged i = some row → s.rotating j = some row' →
    row'.jti ≠ row.jti
  once : ∀ i j row row', s.exchanged i = some row → s.exchanged j = some row' →
    row.jti = row'.jti → i = j
  busy : ∀ i row, s.rotating i = some row → ∀ row' ∈ s.tokens, row'.revokedAt = none →
    row'.familyId = row.familyId → row'.jti = row.jti ∨ s.successor i = some row'.jti
  idle : ∀ f, s.isRotating f = false → ∀ row ∈ s.tokens, ∀ row' ∈ s.tokens,
    row.revokedAt = none → row'.revokedAt = none → row.familyId = f → row'.familyId = f →
    row.jti = row'.jti

theorem Exclusive.new : Exclusive TokenStore.new where
  one := nofun
  spent := nofun
  unspent := nofun
  once := nofun
  busy := nofun
  idle := fun _ _ _ h => absurd h not_mem_nil

/-- Rotations that were there before. -/
theorem isRotating_mono (h : ∀ i row, s.rotating i = some row → ∃ j, t.rotating j = some row)
    (hf : t.isRotating f = false) : s.isRotating f = false := by
  by_contra hne
  obtain ⟨i, row, hrow, rfl⟩ := rotating_of_isRotating (by simpa using hne)
  obtain ⟨j, hj⟩ := h i row hrow
  rw [isRotating_of_rotating hj] at hf
  cases hf

/-- The live tokens of a family agree. -/
def Agrees (s : TokenStore) (f : Uuid) : Prop :=
  ∀ row ∈ s.tokens, ∀ row' ∈ s.tokens, row.revokedAt = none → row'.revokedAt = none →
    row.familyId = f → row'.familyId = f → row.jti = row'.jti

/-- No token begins to be rotated or is exchanged. A live row was there before, or its token was
never exchanged and is the successor in the rotation of its family. -/
theorem Exclusive.of_narrow (hx : Exclusive s)
    (hrot : ∀ {j row}, t.rotating j = some row →
      s.rotating j = some row ∧ ∀ u, s.successor j = some u → t.successor j = some u)
    (hexch : ∀ {j row}, t.exchanged j = some row → s.exchanged j = some row)
    (hrows : ∀ row ∈ t.tokens, row.revokedAt = none → row ∈ s.tokens ∨
      (∀ j row', s.exchanged j = some row' → row.jti ≠ row'.jti) ∧
        ∀ j row', t.rotating j = some row' → row.familyId = row'.familyId →
          t.successor j = some row.jti)
    (hidle : ∀ f, t.isRotating f = false → t.Agrees f) : Exclusive t where
  one j k row row' hj hk := hx.one j k row row' (hrot hj).1 (hrot hk).1
  spent j row hj row' hrow' hlive := (hrows row' hrow' hlive).elim
    (fun hrow' => hx.spent j row (hexch hj) row' hrow' hlive) fun hnew => hnew.1 j row (hexch hj)
  unspent j k row row' hj hk := hx.unspent j k row row' (hexch hj) (hrot hk).1
  once j k row row' hj hk := hx.once j k row row' (hexch hj) (hexch hk)
  busy j row hj row' hrow' hlive hfamily := (hrows row' hrow' hlive).elim
    (fun hrow' => (hx.busy j row (hrot hj).1 row' hrow' hlive hfamily).imp_right ((hrot hj).2 _))
    fun hnew => .inr (hnew.2 j row hj hfamily)
  idle := hidle

/-- No step of a rotation: requests stay, and no row is added. -/
theorem Exclusive.of_quiet (hx : Exclusive s) (hrotating : ∀ j, t.rotating j = s.rotating j)
    (hsuccessor : ∀ j, t.successor j = s.successor j)
    (hexchanged : ∀ j, t.exchanged j = s.exchanged j) (htokens : Narrows s.tokens t.tokens) :
    Exclusive t := by
  refine hx.of_narrow (fun {j row} hj => ⟨hrotating j ▸ hj, fun u hu => (hsuccessor j).trans hu⟩)
    (fun {j row} hj => hexchanged j ▸ hj)
    (fun row hrow hlive => .inl (htokens.unrevoked row hrow hlive)) fun f hf => ?_
  have hidle := isRotating_mono (fun i row hi => ⟨i, (hrotating i).trans hi⟩) hf
  exact fun row hrow row' hrow' hlive hlive' => hx.idle f hidle row
    (htokens.unrevoked row hrow hlive) row' (htokens.unrevoked row' hrow' hlive') hlive hlive'

/-- Request `i` stops before it has inserted a successor. -/
theorem Exclusive.of_stop (hx : Exclusive s) {pc : Pc} (hmoved : MovedTo s t i pc)
    (hrotating : pc.rotating = none) (hexchanged : pc.exchanged = none)
    (hnew : s.successor i = none) (htokens : Narrows s.tokens t.tokens) : Exclusive t := by
  refine hx.of_narrow (fun {j row} hj => ?_) (fun {j row} hj => ?_)
    (fun row hrow hlive => .inl (htokens.unrevoked row hrow hlive)) fun f hf => ?_
  · obtain ⟨-, hpc⟩ | ⟨hji, hj⟩ := hmoved.rotating_or hj
    · simp [hrotating] at hpc
    · exact ⟨hj, fun u hu => (hmoved.successor_of_ne hji).trans hu⟩
  · obtain ⟨-, hpc⟩ | ⟨-, hj⟩ := hmoved.exchanged_or hj
    · simp [hexchanged] at hpc
    · exact hj
  · intro row hrow row' hrow' hlive hlive' hfamily hfamily'
    have hrow := htokens.unrevoked row hrow hlive
    have hrow' := htokens.unrevoked row' hrow' hlive'
    by_cases hidle : s.isRotating f = false
    · exact hx.idle f hidle row hrow row' hrow' hlive hlive' hfamily hfamily'
    · -- the rotation that has stopped was the one of this family
      obtain ⟨j, row₀, hj, rfl⟩ := rotating_of_isRotating (by simpa using hidle)
      obtain rfl : j = i := by
        by_contra hji
        have ht := isRotating_of_rotating ((hmoved.rotating_of_ne hji).trans hj)
        rw [hf] at ht
        cases ht
      have hbusy : ∀ row' ∈ s.tokens, row'.revokedAt = none → row'.familyId = row₀.familyId →
          row'.jti = row₀.jti := by
        intro row' hrow' hlive hfamily
        have h := hx.busy j row₀ hj row' hrow' hlive hfamily
        simpa [hnew] using h
      rw [hbusy row hrow hlive hfamily, hbusy row' hrow' hlive' hfamily']

/-- Request `i` finds its token valid while no rotation of its family is in progress. -/
theorem Exclusive.of_start (hx : Exclusive s) (hrow : row ∈ s.tokens) (hlive : row.revokedAt = none)
    (hidle : s.isRotating row.familyId = false) (hnone : s.rotating i = none)
    (hmoved : MovedTo s t i (.validated row)) (htokens : t.tokens = s.tokens) : Exclusive t := by
  have hrot : ∀ {j row'}, t.rotating j = some row' →
      (j = i ∧ row' = row) ∨ (j ≠ i ∧ s.rotating j = some row') := by
    intro j row' hj
    rcases hmoved.rotating_or hj with ⟨hji, hpc⟩ | hold
    · exact .inl ⟨hji, (some.inj hpc).symm⟩
    · exact .inr hold
  have hexch : ∀ {j row'}, t.exchanged j = some row' → s.exchanged j = some row' := by
    intro j row' hj
    rcases hmoved.exchanged_or hj with ⟨-, hpc⟩ | ⟨-, hold⟩
    · cases hpc
    · exact hold
  have hother : ∀ {j row'}, s.rotating j = some row' → row'.familyId ≠ row.familyId := by
    intro j row' hj hfamily
    rw [← hfamily, isRotating_of_rotating hj] at hidle
    cases hidle
  constructor
  case one =>
    intro j k row₁ row₂ hj hk hfamily
    rcases hrot hj with ⟨rfl, rfl⟩ | ⟨-, hj⟩ <;> rcases hrot hk with ⟨rfl, rfl⟩ | ⟨-, hk⟩
    · rfl
    · exact absurd hfamily.symm (hother hk)
    · exact absurd hfamily (hother hj)
    · exact hx.one j k row₁ row₂ hj hk hfamily
  case spent =>
    intro j row' hj
    rw [htokens]
    exact hx.spent j row' (hexch hj)
  case unspent =>
    intro j k row₁ row₂ hj hk
    rcases hrot hk with ⟨rfl, rfl⟩ | ⟨-, hk⟩
    · exact hx.spent j row₁ (hexch hj) row₂ hrow hlive
    · exact hx.unspent j k row₁ row₂ (hexch hj) hk
  case once => exact fun j k row₁ row₂ hj hk => hx.once j k row₁ row₂ (hexch hj) (hexch hk)
  case busy =>
    intro j row₁ hj row' hrow' hlive' hfamily
    rw [htokens] at hrow'
    rcases hrot hj with ⟨rfl, rfl⟩ | ⟨hji, hj⟩
    · exact .inl (hx.idle _ hidle row' hrow' row₁ hrow hlive' hlive hfamily rfl)
    · rw [hmoved.successor_of_ne hji]
      exact hx.busy j row₁ hj row' hrow' hlive' hfamily
  case idle =>
    intro f hf
    rw [htokens]
    refine hx.idle f (isRotating_mono (fun j row' hj => ⟨j, ?_⟩) hf)
    have hji : j ≠ i := by
      rintro rfl
      rw [hnone] at hj
      cases hj
    rw [hmoved.rotating_of_ne hji, hj]

/-- The rotation of request `i` inserts the successor. -/
theorem Exclusive.of_insert (hs : Sound s) (hx : Exclusive s) {new : RefreshTokenRow} {org : Uuid}
    (hrow : s.rotating i = some row) (hnone : s.successor i = none)
    (hmoved : MovedTo s t i (.inserted row org new.jti)) (hfresh : ∀ e ∈ s.issued, e.1 ≠ new.jti)
    (hfamily : new.familyId = row.familyId) (htokens : t.tokens = s.tokens ++ [new]) :
    Exclusive t := by
  have hrot : ∀ j, t.rotating j = s.rotating j := by
    intro j
    rw [hmoved.rotating j]
    split
    · rename_i hji
      rw [hji, hrow]
      rfl
    · rfl
  have hmem : ∀ {row'}, row' ∈ t.tokens → row' ∈ s.tokens ∨ row' = new := by
    intro row' hrow'
    simpa [htokens] using hrow'
  refine hx.of_narrow (fun {j row'} hj => ⟨hrot j ▸ hj, fun u hu => ?_⟩) (fun {j row'} hj => ?_)
    (fun row' hrow' _ => (hmem hrow').imp_right ?_) fun f hf => ?_
  · have hji : j ≠ i := by
      rintro rfl
      rw [hnone] at hu
      cases hu
    exact (hmoved.successor_of_ne hji).trans hu
  · obtain ⟨-, hpc⟩ | ⟨-, hj⟩ := hmoved.exchanged_or hj
    · cases hpc
    · exact hj
  · rintro rfl
    refine ⟨fun j row₁ hj => (hfresh _ (hs.heldIssued j row₁ (.inr hj))).symm,
      fun j row₁ hj hfamily' => ?_⟩
    obtain rfl := hx.one j i row₁ row (hrot j ▸ hj) hrow (hfamily'.symm.trans hfamily)
    simp [hmoved.successor j, Pc.successor]
  · have hne : row.familyId ≠ f := by
      rintro rfl
      rw [isRotating_of_rotating ((hrot i).trans hrow)] at hf
      cases hf
    have hidle := isRotating_mono (fun j row' hj => ⟨j, (hrot j).trans hj⟩) hf
    intro row₁ hrow₁ row₂ hrow₂ hlive₁ hlive₂ hfamily₁ hfamily₂
    rcases hmem hrow₁ with hrow₁ | rfl
    · rcases hmem hrow₂ with hrow₂ | rfl
      · exact hx.idle f hidle row₁ hrow₁ row₂ hrow₂ hlive₁ hlive₂ hfamily₁ hfamily₂
      · exact absurd (hfamily.symm.trans hfamily₂) hne
    · exact absurd (hfamily.symm.trans hfamily₁) hne

/-- The rotation of request `i` revokes its token. -/
theorem Exclusive.of_finish (hs : Sound s) (hx : Exclusive s) {pc : Pc}
    (hrow : s.rotating i = some row) (hmoved : MovedTo s t i pc) (hrotating : pc.rotating = none)
    (hexchanged : ∀ row', pc.exchanged = some row' → row' = row)
    (htokens : Narrows s.tokens t.tokens)
    (hdead : ∀ row' ∈ t.tokens, row'.revokedAt = none → row'.jti ≠ row.jti) : Exclusive t := by
  have hrot : ∀ {j row'}, t.rotating j = some row' → j ≠ i ∧ s.rotating j = some row' := by
    intro j row' hj
    rcases hmoved.rotating_or hj with ⟨-, hpc⟩ | hold
    · simp [hrotating] at hpc
    · exact hold
  have hexch : ∀ {j row'}, t.exchanged j = some row' →
      (j = i ∧ row' = row) ∨ s.exchanged j = some row' := by
    intro j row' hj
    rcases hmoved.exchanged_or hj with ⟨hji, hpc⟩ | ⟨-, hold⟩
    · exact .inl ⟨hji, hexchanged row' hpc⟩
    · exact .inr hold
  constructor
  case one => exact fun j k row₁ row₂ hj hk => hx.one j k row₁ row₂ (hrot hj).2 (hrot hk).2
  case spent =>
    intro j row₁ hj row' hrow' hlive
    rcases hexch hj with ⟨-, rfl⟩ | hj
    · exact hdead row' hrow' hlive
    · exact hx.spent j row₁ hj row' (htokens.unrevoked row' hrow' hlive) hlive
  case unspent =>
    intro j k row₁ row₂ hj hk
    obtain ⟨hki, hk⟩ := hrot hk
    rcases hexch hj with ⟨-, rfl⟩ | hj
    · -- another rotation of this token would be one of the same family
      intro hjti
      have hissued := hs.heldIssued k row₂ (.inl hk)
      rw [hjti] at hissued
      exact hki (hx.one k i row₂ row₁ hk hrow
        (hs.family_eq hissued (hs.heldIssued i row₁ (.inl hrow))))
    · exact hx.unspent j k row₁ row₂ hj hk
  case once =>
    intro j k row₁ row₂ hj hk hjti
    rcases hexch hj with ⟨rfl, rfl⟩ | hj <;> rcases hexch hk with ⟨rfl, rfl⟩ | hk
    · rfl
    · exact absurd hjti (hx.unspent k j row₂ row₁ hk hrow)
    · exact absurd hjti.symm (hx.unspent j k row₁ row₂ hj hrow)
    · exact hx.once j k row₁ row₂ hj hk hjti
  case busy =>
    intro j row₁ hj row' hrow' hlive hfamily
    obtain ⟨hji, hj⟩ := hrot hj
    rw [hmoved.successor_of_ne hji]
    exact hx.busy j row₁ hj row' (htokens.unrevoked row' hrow' hlive) hlive hfamily
  case idle =>
    intro f hf row₁ hrow₁ row₂ hrow₂ hlive₁ hlive₂ hfamily₁ hfamily₂
    have hmem₁ := htokens.unrevoked row₁ hrow₁ hlive₁
    have hmem₂ := htokens.unrevoked row₂ hrow₂ hlive₂
    by_cases hrowf : row.familyId = f
    · -- only the successor is left
      subst hrowf
      have h₁ := (hx.busy i row hrow row₁ hmem₁ hlive₁ hfamily₁).resolve_left
        (hdead row₁ hrow₁ hlive₁)
      have h₂ := (hx.busy i row hrow row₂ hmem₂ hlive₂ hfamily₂).resolve_left
        (hdead row₂ hrow₂ hlive₂)
      exact some.inj (h₁.symm.trans h₂)
    · refine hx.idle f ?_ row₁ hmem₁ row₂ hmem₂ hlive₁ hlive₂ hfamily₁ hfamily₂
      by_contra hne
      obtain ⟨j, row', hj, rfl⟩ := rotating_of_isRotating (by simpa using hne)
      have hji : j ≠ i := by
        rintro rfl
        rw [hrow] at hj
        exact hrowf (congrArg _ (some.inj hj))
      rw [isRotating_of_rotating ((hmoved.rotating_of_ne hji).trans hj)] at hf
      cases hf

/-- A new family has one token. -/
theorem Exclusive.of_login (hs : Sound s) (hx : Exclusive s) {new : RefreshTokenRow}
    (hrequests : t.requests = s.requests)
    (hfresh : ∀ e ∈ s.issued, e.1 ≠ new.jti ∧ e.2 ≠ new.familyId)
    (htokens : t.tokens = s.tokens ++ [new]) : Exclusive t := by
  have hrot : ∀ j, t.rotating j = s.rotating j := fun j => by rw [rotating, hrequests]; rfl
  have hexch : ∀ j, t.exchanged j = s.exchanged j := fun j => by rw [exchanged, hrequests]; rfl
  have hsucc : ∀ j, t.successor j = s.successor j := fun j => by rw [successor, hrequests]; rfl
  have hmem : ∀ {row'}, row' ∈ t.tokens → row' ∈ s.tokens ∨ row' = new := by
    intro row' hrow'
    simpa [htokens] using hrow'
  refine hx.of_narrow (fun {j row} hj => ⟨hrot j ▸ hj, fun u hu => (hsucc j).trans hu⟩)
    (fun {j row} hj => hexch j ▸ hj) (fun row hrow _ => (hmem hrow).imp_right ?_) fun f hf => ?_
  · rintro rfl
    refine ⟨fun j row₁ hj => (hfresh _ (hs.heldIssued j row₁ (.inr hj))).1.symm,
      fun j row₁ hj hfamily => ?_⟩
    exact absurd hfamily.symm (hfresh _ (hs.heldIssued j row₁ (.inl (hrot j ▸ hj)))).2
  · intro row₁ hrow₁ row₂ hrow₂ hlive₁ hlive₂ hfamily₁ hfamily₂
    have hidle := isRotating_mono (fun j row' hj => ⟨j, (hrot j).trans hj⟩) hf
    rcases hmem hrow₁ with hrow₁ | rfl <;> rcases hmem hrow₂ with hrow₂ | rfl
    · exact hx.idle f hidle row₁ hrow₁ row₂ hrow₂ hlive₁ hlive₂ hfamily₁ hfamily₂
    · exact absurd (hfamily₁.trans hfamily₂.symm) (hfresh _ (hs.rowIssued row₁ hrow₁)).2
    · exact absurd (hfamily₂.trans hfamily₁.symm) (hfresh _ (hs.rowIssued row₂ hrow₂)).2
    · rfl

theorem Exclusive.step (hs : Sound s) (hx : Exclusive s) (hguard : s.Undisturbed a)
    (h : s.step expirySecs a = some t) : Exclusive t := by
  cases step_effect h with
  | quiet hrotating hsuccessor hexchanged haccused hissued htokens =>
    exact hx.of_quiet hrotating hsuccessor hexchanged htokens
  | stop i pc hmoved hrotating hexchanged haccused hnew hissued htokens =>
    refine hx.of_stop hmoved hrotating hexchanged ?_ htokens
    rcases hnew with hnew | ⟨e, rfl⟩
    · exact hnew
    · exact hguard
  | start i r row hr hvalid hnone hmoved hissued htokens =>
    obtain ⟨hrow, -, hlive⟩ := RefreshTokens.validateForRotation_eq_ok hvalid
    exact hx.of_start hrow hlive (hguard r hr row (by rw [hvalid]; rfl)) hnone hmoved htokens
  | insert i row new org hrow hnone hmoved hfresh hfamily hissued htokens =>
    exact hx.of_insert hs hrow hnone hmoved hfresh hfamily htokens
  | finish i row replied pc hrow hmoved hrotating hexchanged haccused hissued htokens hdead =>
    exact hx.of_finish hs hrow hmoved hrotating hexchanged htokens hdead
  | login new userId hrequests hfresh hissued htokens =>
    exact hx.of_login hs hrequests hfresh htokens

/-! ## Runs -/

def unrevoked (s : TokenStore) (f : Uuid) : Table :=
  s.tokens.filter fun row => row.familyId = f && row.revokedAt.isNone

theorem mem_unrevoked :
    row ∈ s.unrevoked f ↔ row ∈ s.tokens ∧ row.familyId = f ∧ row.revokedAt = none := by
  simp [unrevoked]

/-- A family whose unrevoked tokens agree has at most one. -/
theorem length_unrevoked_le_one (hs : Sound s)
    (h : ∀ row ∈ s.unrevoked f, ∀ row' ∈ s.unrevoked f, row.jti = row'.jti) :
    (s.unrevoked f).length ≤ 1 := by
  have hnodup : ((s.unrevoked f).map (·.jti)).Nodup :=
    hs.keys.sublist (filter_sublist.map _)
  match hrows : s.unrevoked f with
  | [] => simp
  | [_] => simp
  | row :: row' :: rest =>
    rw [hrows] at hnodup h
    have hne : row.jti ≠ row'.jti := by
      intro heq
      simp [heq] at hnodup
    exact absurd (h row (by simp) row' (by simp)) hne

theorem exchanged_of_succeeded {r : Refresh} (hr : s.requests[i]? = some r)
    (hsucceeded : r.pc.exchanged.isSome = true) :
    ∃ row, s.exchanged i = some row := by
  obtain ⟨row, hrow⟩ := isSome_iff_exists.1 hsucceeded
  exact ⟨row, by simp [exchanged, hr, hrow]⟩

/-- In every undisturbed run, every token is exchanged at most once: two successful requests that
presented the same token are the same request. A family of which no rotation is in progress has at
most one unrevoked token. -/
theorem rotation_single_use {acts : List Action}
    (hmeets : RunMeets (step expirySecs) Undisturbed TokenStore.new acts)
    (hrun : runFrom (step expirySecs) TokenStore.new acts = some s) :
    (∀ (i j : Nat) (r r' : Refresh), s.requests[i]? = some r → s.requests[j]? = some r' →
      r.pc.exchanged.isSome = true → r'.pc.exchanged.isSome = true →
      r.claims.jti = r'.claims.jti → i = j) ∧
    ∀ f, s.isRotating f = false → (s.unrevoked f).length ≤ 1 := by
  obtain ⟨hs, hx⟩ := invariant_of_guardedStep (I := fun s => Sound s ∧ Exclusive s)
    (fun _ _ _ hinv hguard h => ⟨hinv.1.step h, hinv.2.step hinv.1 hguard h⟩)
    ⟨Sound.new, Exclusive.new⟩ hmeets hrun
  constructor
  · intro i j r r' hr hr' hsucc hsucc' hjti
    obtain ⟨row, hrow⟩ := exchanged_of_succeeded hr hsucc
    obtain ⟨row', hrow'⟩ := exchanged_of_succeeded hr' hsucc'
    have hpresented := hs.heldPresented i row (.inr hrow)
    have hpresented' := hs.heldPresented j row' (.inr hrow')
    rw [presented, hr] at hpresented
    rw [presented, hr'] at hpresented'
    have hrowjti : row.jti = row'.jti :=
      (some.inj hpresented).symm.trans (hjti.trans (some.inj hpresented'))
    exact hx.once i j row row' hrow hrow' hrowjti
  · intro f hidle
    refine length_unrevoked_le_one hs fun row hrow row' hrow' => ?_
    obtain ⟨hmem, hfamily, hlive⟩ := mem_unrevoked.1 hrow
    obtain ⟨hmem', hfamily', hlive'⟩ := mem_unrevoked.1 hrow'
    exact hx.idle f hidle row hmem row' hmem' hlive hlive' hfamily hfamily'

def sampleUuid (n : UInt8) : Uuid := ⟨List.replicate 16 n, length_replicate⟩

def sampleClaims (n : UInt8) : Claims := ⟨sampleUuid 100, sampleUuid 101, sampleUuid n⟩

/-- A login whose token is 1, in family 50. -/
def sampleLogin : Action := .issueNewFamily (sampleUuid 100) (sampleUuid 1) (sampleUuid 50)

/-- The statements of request `i` after its token was found valid, with successor `n`. -/
def sampleRotation (i : Nat) (n : UInt8) : List Action :=
  [.request i (.getUser (some (sampleUuid 101))), .request i (.insert (sampleUuid n)),
    .request i (.markRevoked true)]

/-- Two requests with token 1; both find it valid before either revokes it. -/
def overlappingRun : List Action :=
  [sampleLogin, .arrive (sampleClaims 1), .arrive (sampleClaims 1), .request 0 .validate,
    .request 1 .validate] ++ sampleRotation 0 2 ++ sampleRotation 1 3

/-- The state after the overlapping requests. -/
def overlappingOutcome : TokenStore :=
  (runFrom (step 1000) TokenStore.new overlappingRun).get (by decide +kernel)

/-- One token is exchanged twice, and with no request in progress its family has two unrevoked
tokens. -/
theorem double_exchange :
    runFrom (step 1000) TokenStore.new overlappingRun = some overlappingOutcome ∧
    (overlappingOutcome.requests.map fun r => (r.claims.jti, r.pc.exchanged.isSome)) =
      [(sampleUuid 1, true), (sampleUuid 1, true)] ∧
    overlappingOutcome.isRotating (sampleUuid 50) = false ∧
    (overlappingOutcome.unrevoked (sampleUuid 50)).map (·.jti) = [sampleUuid 2, sampleUuid 3] :=
  ⟨(some_get _).symm, by decide +kernel, by decide +kernel, by decide +kernel⟩

/-- Two rotations one after the other, then a replay of the first token during a third. -/
def sequentialRun : List Action :=
  [sampleLogin, .arrive (sampleClaims 1), .request 0 .validate] ++ sampleRotation 0 2 ++
    [.arrive (sampleClaims 2), .request 1 .validate] ++ sampleRotation 1 3 ++
    [.arrive (sampleClaims 3), .request 2 .validate, .arrive (sampleClaims 1),
      .request 3 .validate, .request 3 .revokeFamily, .request 3 .audit] ++ sampleRotation 2 4

def sequentialOutcome : TokenStore :=
  (runFrom (step 1000) TokenStore.new sequentialRun).get (by decide +kernel)

/-- The rotations one after the other meet the condition. -/
theorem rotation_single_use_sequentialRun :
    (sequentialOutcome.requests.map fun r => r.pc.exchanged.isSome) = [true, true, true, false] ∧
    (sequentialOutcome.unrevoked (sampleUuid 50)).length ≤ 1 :=
  ⟨by decide +kernel,
    (@rotation_single_use 1000 sequentialOutcome sequentialRun (by decide +kernel)
      (some_get _).symm).2 _ (by decide +kernel)⟩

end TokenStore

end RivetLink.Server
