import Mathlib.Data.List.Nodup
import RivetLink.Server.RefreshTokens

/-!
# Rotations of refresh tokens

A rotation is in progress from the statement that has found the token unrevoked to the one that
marks it revoked. `Effect` says once what an action does to the tokens and to the rotations, and
`step_effect` that every action does one of these things. `Sound` is what then holds in every run:
identifiers are issued once, a request rotates the token that it presents, and rows, rotations and
families about to be revoked were issued.
-/

namespace RivetLink.Server

open List Option RivetLink.Foundation

/-! ## Tables -/

/-- Statements other than `INSERT` add no row and unrevoke none. -/
structure Narrows (before after : Table) : Prop where
  keys : (after.map (·.jti)).Sublist (before.map (·.jti))
  origin : ∀ row ∈ after, ∃ row' ∈ before, row'.jti = row.jti ∧ row'.familyId = row.familyId
  unrevoked : ∀ row ∈ after, row.revokedAt = none → row ∈ before

theorem Narrows.refl (table : Table) : Narrows table table where
  keys := List.Sublist.refl _
  origin := fun row hrow => ⟨row, hrow, rfl, rfl⟩
  unrevoked := fun _ hrow _ => hrow

namespace RefreshTokens

variable {row : RefreshTokenRow} {table : Table} {set : RefreshTokenRow → RefreshTokenRow}
  {cond : RefreshTokenRow → Bool} {jti familyId : Uuid} {now : Time}

/-- A row of an updated table. -/
theorem mem_update (h : row ∈ (update cond set table).1) :
    ∃ row' ∈ table, (cond row' = true ∧ row = set row') ∨ (cond row' = false ∧ row = row') := by
  obtain ⟨row', hrow', rfl⟩ := mem_map.1 h
  refine ⟨row', hrow', ?_⟩
  cases hcond : cond row'
  · exact .inr ⟨rfl, by simp⟩
  · exact .inl ⟨rfl, by simp⟩

/-- An update that revokes rows narrows the table. -/
theorem update_narrows (hset : ∀ row, (set row).jti = row.jti ∧ (set row).familyId = row.familyId ∧
      (set row).revokedAt ≠ none) (table : Table) : Narrows table (update cond set table).1 where
  keys := by
    have hkeys : (update cond set table).1.map (·.jti) = table.map (·.jti) := by
      simp only [update, List.map_map]
      refine List.map_congr_left fun row _ => ?_
      by_cases hcond : cond row <;> simp [hcond, (hset row).1]
    rw [hkeys]
  origin := fun row hrow => by
    obtain ⟨row', hrow', ⟨-, rfl⟩ | ⟨-, rfl⟩⟩ := mem_update hrow
    · exact ⟨row', hrow', (hset row').1.symm, (hset row').2.1.symm⟩
    · exact ⟨row, hrow', rfl, rfl⟩
  unrevoked := fun row hrow hlive => by
    obtain ⟨row', hrow', ⟨-, rfl⟩ | ⟨-, rfl⟩⟩ := mem_update hrow
    · exact absurd hlive (hset row').2.2
    · exact hrow'

theorem markRevoked_narrows (now : Time) (jti : Uuid) (replacedBy : Option Uuid) (table : Table) :
    Narrows table (markRevoked now jti replacedBy table) := by
  unfold markRevoked
  refine update_narrows ?_ table
  exact fun _ => ⟨rfl, rfl, some_ne_none _⟩

theorem revokeFamily_narrows (now : Time) (familyId : Uuid) (table : Table) :
    Narrows table (revokeFamily now familyId table).1 := by
  unfold revokeFamily
  refine update_narrows ?_ table
  exact fun _ => ⟨rfl, rfl, some_ne_none _⟩

theorem revokeAllForUser_narrows (now : Time) (userId : Uuid) (table : Table) :
    Narrows table (revokeAllForUser now userId table).1 := by
  unfold revokeAllForUser
  refine update_narrows ?_ table
  exact fun _ => ⟨rfl, rfl, some_ne_none _⟩

theorem deleteExpired_narrows (now : Time) (table : Table) :
    Narrows table (deleteExpired now table) where
  keys := filter_sublist.map _
  origin := fun row hrow => ⟨row, mem_of_mem_filter hrow, rfl, rfl⟩
  unrevoked := fun _ hrow _ => mem_of_mem_filter hrow

/-- A marked token has no unrevoked row. -/
theorem jti_ne_of_markRevoked {replacedBy : Option Uuid}
    (h : row ∈ markRevoked now jti replacedBy table) (hlive : row.revokedAt = none) :
    row.jti ≠ jti := by
  obtain ⟨row', -, ⟨-, rfl⟩ | ⟨hcond, rfl⟩⟩ := mem_update h
  · cases hlive
  · simpa [hlive] using hcond

/-- A revoked family has no unrevoked row. -/
theorem family_ne_of_revokeFamily (h : row ∈ (revokeFamily now familyId table).1)
    (hlive : row.revokedAt = none) : row.familyId ≠ familyId := by
  obtain ⟨row', -, ⟨-, rfl⟩ | ⟨hcond, rfl⟩⟩ := mem_update h
  · cases hlive
  · simpa [hlive] using hcond

theorem insert_eq_ok {expiresIn : Time} {userId : Uuid} {table' : Table}
    (h : insert now expiresIn jti userId familyId table = .ok table') :
    table' = table ++ [⟨jti, userId, familyId, now + expiresIn, none, none⟩] := by
  unfold insert at h
  split at h
  · cases h
  · exact (Except.ok.inj h).symm

/-- A token that validates has an unrevoked row. -/
theorem validateForRotation_eq_ok (h : validateForRotation now jti table = .ok row) :
    row ∈ table ∧ row.jti = jti ∧ row.revokedAt = none := by
  unfold validateForRotation at h
  split at h
  · cases h
  · rename_i row' hfind
    split at h
    · cases h
    · rename_i hrevoked
      split at h
      · cases h
      · obtain rfl := Except.ok.inj h
        exact ⟨mem_of_find?_eq_some hfind, by simpa using find?_some hfind,
          by simpa [RefreshTokenRow.isRevoked] using hrevoked⟩

/-- A token that was reused has a row. -/
theorem validateForRotation_reused
    (h : validateForRotation now jti table = .error (.reused familyId)) :
    ∃ row ∈ table, row.familyId = familyId := by
  unfold validateForRotation at h
  split at h
  · cases h
  · rename_i row hfind
    split at h
    · exact ⟨row, mem_of_find?_eq_some hfind,
        RotationError.reused.inj (Except.error.inj h)⟩
    · split at h <;> cases h

end RefreshTokens

/-! ## Rotations -/

def Pc.rotating : Pc → Option RefreshTokenRow
  | .validated row => some row
  | .creating row _ => some row
  | .inserted row _ _ => some row
  | _ => none

/-- The successor that a rotation in progress has inserted. -/
def Pc.successor : Pc → Option Uuid
  | .inserted _ _ successor => some successor
  | _ => none

/-- The row that a successful request has exchanged. -/
def Pc.exchanged : Pc → Option RefreshTokenRow
  | .succeeded row _ _ => some row
  | _ => none

/-- The family that a request is about to revoke. -/
def Pc.accused : Pc → Option Uuid
  | .reused familyId => some familyId
  | _ => none

namespace TokenStore

def rotating (s : TokenStore) (i : Nat) : Option RefreshTokenRow :=
  s.requests[i]?.bind (·.pc.rotating)

def successor (s : TokenStore) (i : Nat) : Option Uuid := s.requests[i]?.bind (·.pc.successor)

def exchanged (s : TokenStore) (i : Nat) : Option RefreshTokenRow :=
  s.requests[i]?.bind (·.pc.exchanged)

def accused (s : TokenStore) (i : Nat) : Option Uuid := s.requests[i]?.bind (·.pc.accused)

def presented (s : TokenStore) (i : Nat) : Option Uuid := s.requests[i]?.map (·.claims.jti)

variable {expirySecs : Time} {s t : TokenStore} {a : Action} {i : Nat} {r : Refresh} {pc : Pc}
  {st : Statement} {jti : Uuid}

/-- Request `i` stands at `pc` in `t`, and the others stand in `t` where they do in `s`. -/
structure MovedTo (s t : TokenStore) (i : Nat) (pc : Pc) : Prop where
  rotating : ∀ j, t.rotating j = if j = i then pc.rotating else s.rotating j
  successor : ∀ j, t.successor j = if j = i then pc.successor else s.successor j
  exchanged : ∀ j, t.exchanged j = if j = i then pc.exchanged else s.exchanged j
  accused : ∀ j, t.accused j = if j = i then pc.accused else s.accused j

theorem movedTo_goTo (hr : s.requests[i]? = some r) (ht : t.requests = (s.goTo i r pc).requests) :
    MovedTo s t i pc := by
  obtain ⟨hlt, -⟩ := List.getElem?_eq_some_iff.1 hr
  have hget : ∀ j, t.requests[j]? = if j = i then some { r with pc := pc } else s.requests[j]? := by
    intro j
    rw [ht, goTo, getElem?_set]
    by_cases hji : j = i
    · simp [hji, hlt]
    · simp [hji, Ne.symm hji]
  constructor
  all_goals
    intro j
    by_cases hji : j = i <;> simp [TokenStore.rotating, TokenStore.successor, TokenStore.exchanged,
      TokenStore.accused, hget, hji]

section MovedTo

variable {j : Nat} {row : RefreshTokenRow}

theorem MovedTo.rotating_or (h : MovedTo s t i pc) (hj : t.rotating j = some row) :
    (j = i ∧ pc.rotating = some row) ∨ (j ≠ i ∧ s.rotating j = some row) := by
  rw [h.rotating j] at hj
  split at hj
  · exact .inl ⟨‹_›, hj⟩
  · exact .inr ⟨‹_›, hj⟩

theorem MovedTo.exchanged_or (h : MovedTo s t i pc) (hj : t.exchanged j = some row) :
    (j = i ∧ pc.exchanged = some row) ∨ (j ≠ i ∧ s.exchanged j = some row) := by
  rw [h.exchanged j] at hj
  split at hj
  · exact .inl ⟨‹_›, hj⟩
  · exact .inr ⟨‹_›, hj⟩

theorem MovedTo.accused_or {f : Uuid} (h : MovedTo s t i pc) (hj : t.accused j = some f) :
    (j = i ∧ pc.accused = some f) ∨ (j ≠ i ∧ s.accused j = some f) := by
  rw [h.accused j] at hj
  split at hj
  · exact .inl ⟨‹_›, hj⟩
  · exact .inr ⟨‹_›, hj⟩

theorem MovedTo.rotating_of_ne (h : MovedTo s t i pc) (hji : j ≠ i) :
    t.rotating j = s.rotating j := by
  rw [h.rotating j, if_neg hji]

theorem MovedTo.successor_of_ne (h : MovedTo s t i pc) (hji : j ≠ i) :
    t.successor j = s.successor j := by
  rw [h.successor j, if_neg hji]

end MovedTo

/-- A statement moves its own request only. -/
theorem advance_requests (h : s.advance expirySecs i r st = some t) :
    ∃ pc, t.requests = (s.goTo i r pc).requests := by
  cases st <;> simp only [advance] at h <;> repeat' split at h
  all_goals cases h
  all_goals exact ⟨_, rfl⟩

/-- What an action does to the tokens and the rotations.

* `quiet`: every request stands where it stood, as far as rotations are concerned.
* `stop`: request `i` does not rotate. Unless it was aborted, it had not inserted a successor.
* `start`: request `i` has found its token unrevoked.
* `insert`: the rotation of request `i` has inserted the successor.
* `finish`: request `i` has revoked its token. It succeeds, or loses the connection.
* `login`: a new family. -/
inductive Effect (s t : TokenStore) : Action → Prop where
  | quiet {a : Action} (hrotating : ∀ j, t.rotating j = s.rotating j)
      (hsuccessor : ∀ j, t.successor j = s.successor j)
      (hexchanged : ∀ j, t.exchanged j = s.exchanged j) (haccused : ∀ j, t.accused j = s.accused j)
      (hissued : t.issued = s.issued) (htokens : Narrows s.tokens t.tokens) : Effect s t a
  | stop {a : Action} (i : Nat) (pc : Pc) (hmoved : MovedTo s t i pc)
      (hrotating : pc.rotating = none)
      (hexchanged : pc.exchanged = none)
      (haccused : ∀ f, pc.accused = some f → ∃ row ∈ s.tokens, row.familyId = f)
      (hnew : s.successor i = none ∨ ∃ e, a = .request i (.abort e))
      (hissued : t.issued = s.issued) (htokens : Narrows s.tokens t.tokens) : Effect s t a
  | start (i : Nat) (r : Refresh) (row : RefreshTokenRow) (hr : s.requests[i]? = some r)
      (hvalid : RefreshTokens.validateForRotation s.now r.claims.jti s.tokens = .ok row)
      (hnone : s.rotating i = none) (hmoved : MovedTo s t i (.validated row))
      (hissued : t.issued = s.issued) (htokens : t.tokens = s.tokens) :
      Effect s t (.request i .validate)
  | insert (i : Nat) (row new : RefreshTokenRow) (org : Uuid) (hrow : s.rotating i = some row)
      (hnone : s.successor i = none) (hmoved : MovedTo s t i (.inserted row org new.jti))
      (hfresh : ∀ e ∈ s.issued, e.1 ≠ new.jti) (hfamily : new.familyId = row.familyId)
      (hissued : t.issued = s.issued ++ [(new.jti, new.familyId)])
      (htokens : t.tokens = s.tokens ++ [new]) : Effect s t (.request i (.insert new.jti))
  | finish (i : Nat) (row : RefreshTokenRow) (replied : Bool) (pc : Pc)
      (hrow : s.rotating i = some row) (hmoved : MovedTo s t i pc) (hrotating : pc.rotating = none)
      (hexchanged : ∀ row', pc.exchanged = some row' → row' = row) (haccused : pc.accused = none)
      (hissued : t.issued = s.issued) (htokens : Narrows s.tokens t.tokens)
      (hdead : ∀ row' ∈ t.tokens, row'.revokedAt = none → row'.jti ≠ row.jti) :
      Effect s t (.request i (.markRevoked replied))
  | login (new : RefreshTokenRow) (userId : Uuid) (hrequests : t.requests = s.requests)
      (hfresh : ∀ e ∈ s.issued, e.1 ≠ new.jti ∧ e.2 ≠ new.familyId)
      (hissued : t.issued = s.issued ++ [(new.jti, new.familyId)])
      (htokens : t.tokens = s.tokens ++ [new]) :
      Effect s t (.issueNewFamily userId new.jti new.familyId)

/-- Nothing happens to the requests. -/
theorem Effect.of_requests_eq (hrequests : t.requests = s.requests) (hissued : t.issued = s.issued)
    (htokens : Narrows s.tokens t.tokens) : Effect s t a :=
  .quiet (fun j => by rw [TokenStore.rotating, hrequests]; rfl)
    (fun j => by rw [TokenStore.successor, hrequests]; rfl)
    (fun j => by rw [TokenStore.exchanged, hrequests]; rfl)
    (fun j => by rw [TokenStore.accused, hrequests]; rfl) hissued htokens

/-- A request goes on to a place where it does not rotate. -/
theorem Effect.of_failed (hr : s.requests[i]? = some r) (hsuccessor : r.pc.successor = none)
    (ht : t.requests = (s.goTo i r pc).requests) (hrotating : pc.rotating = none)
    (hexchanged : pc.exchanged = none)
    (haccused : ∀ f, pc.accused = some f → ∃ row ∈ s.tokens, row.familyId = f)
    (hissued : t.issued = s.issued) (htokens : Narrows s.tokens t.tokens) : Effect s t a :=
  .stop i pc (movedTo_goTo hr ht) hrotating hexchanged haccused
    (.inl (by simp [TokenStore.successor, hr, hsuccessor])) hissued htokens

/-- A request goes on to a place that is the same as far as rotations are concerned. -/
theorem Effect.of_same (hr : s.requests[i]? = some r)
    (ht : t.requests = (s.goTo i r pc).requests) (hrotating : pc.rotating = r.pc.rotating)
    (hsuccessor : pc.successor = r.pc.successor) (hexchanged : pc.exchanged = r.pc.exchanged)
    (haccused : pc.accused = r.pc.accused) (hissued : t.issued = s.issued)
    (htokens : Narrows s.tokens t.tokens) : Effect s t a := by
  have hmoved := movedTo_goTo hr ht
  refine .quiet (fun j => ?_) (fun j => ?_) (fun j => ?_) (fun j => ?_) hissued htokens
  · rw [hmoved.rotating j, hrotating]
    split <;> simp_all [TokenStore.rotating]
  · rw [hmoved.successor j, hsuccessor]
    split <;> simp_all [TokenStore.successor]
  · rw [hmoved.exchanged j, hexchanged]
    split <;> simp_all [TokenStore.exchanged]
  · rw [hmoved.accused j, haccused]
    split <;> simp_all [TokenStore.accused]

/-- A new request rotates nothing yet. -/
theorem Effect.of_arrive {claims : Claims}
    (ht : t.requests = s.requests ++ [⟨claims, .presented⟩]) (hissued : t.issued = s.issued)
    (htokens : Narrows s.tokens t.tokens) : Effect s t a := by
  have hview : ∀ {α : Type} (f : Pc → Option α) (j : Nat), f .presented = none →
      t.requests[j]?.bind (fun r => f r.pc) = s.requests[j]?.bind (fun r => f r.pc) := by
    intro α f j hf
    rw [ht]
    rcases Nat.lt_trichotomy j s.requests.length with hlt | heq | hlt
    · rw [getElem?_append_left hlt]
    · simp [heq, hf]
    · rw [getElem?_eq_none (by simp; omega), getElem?_eq_none (by omega)]
  exact .quiet (fun j => hview Pc.rotating j rfl) (fun j => hview Pc.successor j rfl)
    (fun j => hview Pc.exchanged j rfl) (fun j => hview Pc.accused j rfl) hissued htokens

theorem validate_effect (hr : s.requests[i]? = some r)
    (h : s.advance expirySecs i r .validate = some t) : Effect s t (.request i .validate) := by
  simp only [advance] at h
  split at h
  case h_2 => cases h
  rename_i hpc
  have hsuccessor : r.pc.successor = none := by rw [hpc]; rfl
  split at h
  · rename_i row hvalid
    cases h
    exact .start i r row hr hvalid (by simp [TokenStore.rotating, hr, hpc, Pc.rotating])
      (movedTo_goTo hr rfl) rfl rfl
  · rename_i familyId hreused
    cases h
    have hrow := RefreshTokens.validateForRotation_reused hreused
    exact .of_failed hr hsuccessor rfl rfl rfl (by simpa [Pc.accused] using hrow) rfl (.refl _)
  · cases h
    exact .of_failed hr hsuccessor rfl rfl rfl (by simp [Pc.accused]) rfl (.refl _)

theorem insert_effect (hr : s.requests[i]? = some r)
    (h : s.advance expirySecs i r (.insert jti) = some t) :
    Effect s t (.request i (.insert jti)) := by
  simp only [advance] at h
  split at h
  case h_2 => cases h
  rename_i row org hpc
  have hsuccessor : r.pc.successor = none := by rw [hpc]; rfl
  split at h
  · cases h
  rename_i hfresh
  split at h
  · rename_i tokens hinsert
    cases h
    obtain rfl := RefreshTokens.insert_eq_ok hinsert
    refine .insert i row ⟨jti, row.userId, row.familyId, s.now + expirySecs, none, none⟩ org
      (by simp [TokenStore.rotating, hr, hpc, Pc.rotating])
      (by simp [TokenStore.successor, hr, hsuccessor]) (movedTo_goTo hr rfl) ?_ rfl rfl rfl
    exact fun e he hjti => hfresh (any_eq_true.2 ⟨e, he, by simpa using hjti⟩)
  · cases h
    exact .of_failed hr hsuccessor rfl rfl rfl (by simp [Pc.accused]) rfl (.refl _)

theorem markRevoked_effect {replied : Bool} (hr : s.requests[i]? = some r)
    (h : s.advance expirySecs i r (.markRevoked replied) = some t) :
    Effect s t (.request i (.markRevoked replied)) := by
  simp only [advance] at h
  split at h
  case h_2 => cases h
  rename_i row org successor hpc
  cases h
  refine .finish i row replied _ (by simp [TokenStore.rotating, hr, hpc, Pc.rotating])
    (movedTo_goTo hr rfl) ?_ ?_ ?_ rfl (RefreshTokens.markRevoked_narrows _ _ _ _)
    fun row' hrow' hlive => RefreshTokens.jti_ne_of_markRevoked hrow' hlive
  · cases replied <;> rfl
  · cases replied <;> simp [Pc.exchanged]
  · cases replied <;> rfl

theorem advance_effect (hr : s.requests[i]? = some r) (h : s.advance expirySecs i r st = some t) :
    Effect s t (.request i st) := by
  cases st with
  | validate => exact validate_effect hr h
  | insert jti => exact insert_effect hr h
  | markRevoked replied => exact markRevoked_effect hr h
  | revokeFamily =>
    simp only [advance] at h
    split at h
    case h_2 => cases h
    rename_i familyId hpc
    cases h
    refine .of_failed hr (by rw [hpc]; rfl) rfl ?_ ?_ ?_ rfl
      (RefreshTokens.revokeFamily_narrows _ _ _)
    all_goals split <;> simp [Pc.rotating, Pc.exchanged, Pc.accused]
  | audit =>
    simp only [advance] at h
    split at h
    case h_2 => cases h
    rename_i familyId count hpc
    cases h
    exact .of_failed hr (by rw [hpc]; rfl) rfl rfl rfl (by simp [Pc.accused]) rfl (.refl _)
  | getUser org =>
    simp only [advance] at h
    split at h
    · rename_i row org' hpc
      cases h
      exact .of_same hr rfl (by rw [hpc]; rfl) (by rw [hpc]; rfl) (by rw [hpc]; rfl)
        (by rw [hpc]; rfl) rfl (.refl _)
    · rename_i row hpc
      cases h
      exact .of_failed hr (by rw [hpc]; rfl) rfl rfl rfl (by simp [Pc.accused]) rfl (.refl _)
    · cases h
  | abort e =>
    simp only [advance] at h
    split at h
    · cases h
    · cases h
    · cases h
      exact .stop i (.failed e) (movedTo_goTo hr rfl) rfl rfl (by simp [Pc.accused])
        (.inr ⟨e, rfl⟩) rfl (.refl _)

/-- Every action has one of the effects. -/
theorem step_effect (h : s.step expirySecs a = some t) : Effect s t a := by
  cases a with
  | arrive claims =>
    cases h
    exact .of_arrive rfl rfl (.refl _)
  | request i st =>
    obtain ⟨r, hr, hadvance⟩ := bind_eq_some_iff.1 h
    exact advance_effect hr hadvance
  | issueNewFamily userId jti familyId =>
    simp only [step] at h
    split at h
    · cases h
    rename_i hfresh
    split at h
    · rename_i tokens hinsert
      cases h
      obtain rfl := RefreshTokens.insert_eq_ok hinsert
      refine .login ⟨jti, userId, familyId, s.now + expirySecs, none, none⟩ userId rfl
        (fun e he => ⟨fun hjti => hfresh ?_, fun hfamily => hfresh ?_⟩) rfl rfl
      · exact any_eq_true.2 ⟨e, he, by simp [hjti]⟩
      · exact any_eq_true.2 ⟨e, he, by simp [hfamily]⟩
    · cases h
      exact .of_requests_eq rfl rfl (.refl _)
  | deleteExpired =>
    cases h
    exact .of_requests_eq rfl rfl (RefreshTokens.deleteExpired_narrows _ _)
  | revokeAllForUser userId =>
    cases h
    exact .of_requests_eq rfl rfl (RefreshTokens.revokeAllForUser_narrows _ _ _)
  | tick seconds =>
    cases h
    exact .of_requests_eq rfl rfl (.refl _)

/-- Which token a request presents does not change. -/
theorem presented_step (h : s.step expirySecs a = some t) (hi : s.presented i = some jti) :
    t.presented i = some jti := by
  obtain ⟨r, hr, rfl⟩ := map_eq_some_iff.1 hi
  have hset : ∀ {j : Nat} {r' : Refresh} {pc : Pc}, s.requests[j]? = some r' →
      t.requests = (s.goTo j r' pc).requests → t.presented i = some r.claims.jti := by
    intro j r' pc hr' ht
    rw [presented, ht, goTo, getElem?_set]
    by_cases hji : j = i
    · subst hji
      rw [hr] at hr'
      cases hr'
      obtain ⟨hlt, -⟩ := List.getElem?_eq_some_iff.1 hr
      simp [hlt]
    · simp [hji, hr]
  have hsame : t.requests = s.requests → t.presented i = some r.claims.jti := by
    intro ht
    rw [presented, ht, hr]
    rfl
  cases a with
  | arrive claims =>
    cases h
    obtain ⟨hlt, -⟩ := List.getElem?_eq_some_iff.1 hr
    simp [presented, List.getElem?_append_left hlt, hr]
  | request j st =>
    obtain ⟨r', hr', h⟩ := bind_eq_some_iff.1 h
    obtain ⟨pc, ht⟩ := advance_requests h
    exact hset hr' ht
  | issueNewFamily userId jti familyId =>
    obtain ⟨-, h⟩ := ite_none_left_eq_some.1 h
    split at h <;> cases h <;> exact hsame rfl
  | deleteExpired | revokeAllForUser userId | tick seconds => cases h; exact hsame rfl

/-! ## What holds in every run -/

/-- Request `i` rotates or has exchanged `row`. -/
def Holds (s : TokenStore) (i : Nat) (row : RefreshTokenRow) : Prop :=
  s.rotating i = some row ∨ s.exchanged i = some row

/-- Identifiers are issued once, and rows, requests and accusations are about issued ones. -/
structure Sound (s : TokenStore) : Prop where
  issuedOnce : (s.issued.map Prod.fst).Nodup
  keys : (s.tokens.map (·.jti)).Nodup
  rowIssued : ∀ row ∈ s.tokens, (row.jti, row.familyId) ∈ s.issued
  heldIssued : ∀ i row, s.Holds i row → (row.jti, row.familyId) ∈ s.issued
  heldPresented : ∀ i row, s.Holds i row → s.presented i = some row.jti
  accusedIssued : ∀ i f, s.accused i = some f → ∃ e ∈ s.issued, e.2 = f

theorem Sound.new : Sound TokenStore.new where
  issuedOnce := nodup_nil
  keys := nodup_nil
  rowIssued := fun _ h => absurd h not_mem_nil
  heldIssued := fun _ _ h => by rcases h with h | h <;> cases h
  heldPresented := fun _ _ h => by rcases h with h | h <;> cases h
  accusedIssued := nofun

/-- A token belongs to one family. -/
theorem Sound.family_eq (hs : Sound s) {f f' : Uuid} (h : (jti, f) ∈ s.issued)
    (h' : (jti, f') ∈ s.issued) : f = f' :=
  congrArg Prod.snd (inj_on_of_nodup_map hs.issuedOnce h h' rfl)

/-- A step that adds no row: what requests hold they held before, or it is a row of the table. -/
theorem Sound.of_narrows (hs : Sound s) (hissued : t.issued = s.issued)
    (htokens : Narrows s.tokens t.tokens)
    (hpresented : ∀ j jti, s.presented j = some jti → t.presented j = some jti)
    (hheld : ∀ j row, t.Holds j row →
      s.Holds j row ∨ (row ∈ s.tokens ∧ s.presented j = some row.jti))
    (haccused : ∀ j f, t.accused j = some f →
      s.accused j = some f ∨ ∃ row ∈ s.tokens, row.familyId = f) : Sound t where
  issuedOnce := hissued ▸ hs.issuedOnce
  keys := hs.keys.sublist htokens.keys
  rowIssued := fun row hrow => by
    obtain ⟨row', hrow', hjti, hfamily⟩ := htokens.origin row hrow
    rw [hissued, ← hjti, ← hfamily]
    exact hs.rowIssued row' hrow'
  heldIssued := fun j row hrow => by
    rw [hissued]
    rcases hheld j row hrow with hrow | ⟨hrow, -⟩
    · exact hs.heldIssued j row hrow
    · exact hs.rowIssued row hrow
  heldPresented := fun j row hrow => by
    rcases hheld j row hrow with hrow | ⟨-, hrow⟩
    · exact hpresented j _ (hs.heldPresented j row hrow)
    · exact hpresented j _ hrow
  accusedIssued := fun j f hf => by
    rw [hissued]
    rcases haccused j f hf with hf | ⟨row, hrow, rfl⟩
    · exact hs.accusedIssued j f hf
    · exact ⟨_, hs.rowIssued row hrow, rfl⟩

/-- A step that adds a row with a new identifier. -/
theorem Sound.of_added (hs : Sound s) {new : RefreshTokenRow}
    (hfresh : ∀ e ∈ s.issued, e.1 ≠ new.jti)
    (hissued : t.issued = s.issued ++ [(new.jti, new.familyId)])
    (htokens : t.tokens = s.tokens ++ [new])
    (hpresented : ∀ j jti, s.presented j = some jti → t.presented j = some jti)
    (hheld : ∀ j row, t.Holds j row → s.Holds j row)
    (haccused : ∀ j f, t.accused j = some f → s.accused j = some f) : Sound t where
  issuedOnce := by
    rw [hissued, map_append, map_cons, map_nil, nodup_append]
    refine ⟨hs.issuedOnce, nodup_singleton _, fun jti hjti jti' hjti' => ?_⟩
    obtain ⟨e, he, rfl⟩ := mem_map.1 hjti
    rw [mem_singleton.1 hjti']
    exact hfresh e he
  keys := by
    rw [htokens, map_append, map_cons, map_nil, nodup_append]
    refine ⟨hs.keys, nodup_singleton _, fun jti hjti jti' hjti' => ?_⟩
    obtain ⟨row, hrow, rfl⟩ := mem_map.1 hjti
    rw [mem_singleton.1 hjti']
    exact hfresh _ (hs.rowIssued row hrow)
  rowIssued := fun row hrow => by
    rw [htokens] at hrow
    rw [hissued]
    rcases mem_append.1 hrow with hrow | hrow
    · exact mem_append_left _ (hs.rowIssued row hrow)
    · rw [mem_singleton.1 hrow]
      exact mem_append_right _ (mem_singleton_self _)
  heldIssued := fun j row hrow => by
    rw [hissued]
    exact mem_append_left _ (hs.heldIssued j row (hheld j row hrow))
  heldPresented := fun j row hrow => hpresented j _ (hs.heldPresented j row (hheld j row hrow))
  accusedIssued := fun j f hf => by
    obtain ⟨e, he, hef⟩ := hs.accusedIssued j f (haccused j f hf)
    rw [hissued]
    exact ⟨e, mem_append_left _ he, hef⟩

/-- What a moved request holds, it has been given by the move. -/
theorem MovedTo.holds_or (h : MovedTo s t i pc) {j : Nat} {row : RefreshTokenRow}
    (hj : t.Holds j row) :
    (j = i ∧ (pc.rotating = some row ∨ pc.exchanged = some row)) ∨ (j ≠ i ∧ s.Holds j row) := by
  rcases hj with hj | hj
  · rcases h.rotating_or hj with ⟨hji, hpc⟩ | ⟨hji, hs⟩
    · exact .inl ⟨hji, .inl hpc⟩
    · exact .inr ⟨hji, .inl hs⟩
  · rcases h.exchanged_or hj with ⟨hji, hpc⟩ | ⟨hji, hs⟩
    · exact .inl ⟨hji, .inr hpc⟩
    · exact .inr ⟨hji, .inr hs⟩

theorem Sound.step (hs : Sound s) (h : s.step expirySecs a = some t) : Sound t := by
  have hpresented : ∀ j jti, s.presented j = some jti → t.presented j = some jti :=
    fun _ _ hj => presented_step h hj
  cases step_effect h with
  | quiet hrotating hsuccessor hexchanged haccused hissued htokens =>
    refine hs.of_narrows hissued htokens hpresented (fun j row hj => .inl ?_) fun j f hf => .inl ?_
    · rwa [Holds, hrotating j, hexchanged j] at hj
    · rwa [haccused j] at hf
  | stop i pc hmoved hrotating hexchanged haccused hnew hissued htokens =>
    refine hs.of_narrows hissued htokens hpresented (fun j row hj => .inl ?_) fun j f hf => ?_
    · rcases hmoved.holds_or hj with ⟨-, hpc | hpc⟩ | ⟨-, hold⟩
      · simp [hrotating] at hpc
      · simp [hexchanged] at hpc
      · exact hold
    · rcases hmoved.accused_or hf with ⟨-, hpc⟩ | ⟨-, hold⟩
      · exact .inr (haccused f hpc)
      · exact .inl hold
  | start i r row hr hvalid hnone hmoved hissued htokens =>
    refine hs.of_narrows hissued (htokens ▸ .refl _) hpresented (fun j row' hj => ?_)
      fun j f hf => .inl ?_
    · rcases hmoved.holds_or hj with ⟨rfl, hpc | hpc⟩ | ⟨-, hold⟩
      · cases hpc
        obtain ⟨hrow, hjti, -⟩ := RefreshTokens.validateForRotation_eq_ok hvalid
        exact .inr ⟨hrow, by simp [presented, hr, hjti]⟩
      · cases hpc
      · exact .inl hold
    · rcases hmoved.accused_or hf with ⟨-, hpc⟩ | ⟨-, hold⟩
      · cases hpc
      · exact hold
  | insert i row new org hrow hnone hmoved hfresh hfamily hissued htokens =>
    refine hs.of_added hfresh hissued htokens hpresented (fun j row' hj => ?_) fun j f hf => ?_
    · rcases hmoved.holds_or hj with ⟨rfl, hpc | hpc⟩ | ⟨-, hold⟩
      · exact .inl (hrow.trans hpc)
      · cases hpc
      · exact hold
    · rcases hmoved.accused_or hf with ⟨-, hpc⟩ | ⟨-, hold⟩
      · cases hpc
      · exact hold
  | finish i row replied pc hrow hmoved hrotating hexchanged haccused hissued htokens hdead =>
    refine hs.of_narrows hissued htokens hpresented (fun j row' hj => .inl ?_) fun j f hf => .inl ?_
    · rcases hmoved.holds_or hj with ⟨rfl, hpc | hpc⟩ | ⟨-, hold⟩
      · simp [hrotating] at hpc
      · obtain rfl := hexchanged row' hpc
        exact .inl hrow
      · exact hold
    · rcases hmoved.accused_or hf with ⟨-, hpc⟩ | ⟨-, hold⟩
      · simp [haccused] at hpc
      · exact hold
  | login new userId hrequests hfresh hissued htokens =>
    refine hs.of_added (fun e he => (hfresh e he).1) hissued htokens hpresented
      (fun j row hj => ?_) fun j f hf => ?_
    · rwa [Holds, TokenStore.rotating, TokenStore.exchanged, hrequests] at hj
    · rwa [TokenStore.accused, hrequests] at hf

theorem sound_of_run {acts : List Action}
    (hrun : runFrom (step expirySecs) TokenStore.new acts = some s) : Sound s :=
  invariant_of_step (I := Sound) (fun _ _ _ hs h => hs.step h) Sound.new hrun

end TokenStore

end RivetLink.Server
