import RivetLink.Foundation.Transition
import Mathlib.Data.List.Nodup
import Mathlib.Data.List.Range
import Mathlib.Data.List.Perm.Subperm
import Mathlib.Tactic.Linarith

/-!
# The lockout of an account

`login` counts an attempt before it checks the password: `reserve_login_attempt` is one statement
that adds to the failed logins of the account, and locks it when the count reaches the limit, unless
the account is locked. The password check is slow, and any number of requests run at once. A step
of the model is one statement on the database or one password check; each reservation is made at an
instant of a common clock. Times are in seconds.

`granted` records the attempts that were reserved, and `verified` which of them had their password
checked.
-/

namespace RivetLink.Server

open List Option RivetLink.Foundation

structure LoginRow where
  failedLoginCount : Nat := 0
  lockedUntil : Option Int := none
  deriving DecidableEq

def i32Max : Nat := 2147483647

/-- `reserve_login_attempt` at an instant: the row that it leaves and the number of the attempt.
There is none if the account is locked. The statement fails if the counter would overflow. -/
def reserveLoginAttempt (maxAttempts lockoutSecs now : Int) (row : LoginRow) :
    Except Unit (LoginRow × Option Nat) :=
  if row.lockedUntil.all (· ≤ now) then
    if row.failedLoginCount + 1 ≤ i32Max then
      .ok ({ failedLoginCount := row.failedLoginCount + 1
             lockedUntil :=
              if maxAttempts ≤ (row.failedLoginCount + 1 : Nat) then some (now + lockoutSecs)
              else row.lockedUntil }, some (row.failedLoginCount + 1))
    else .error ()
  else .ok (row, none)

inductive LoginError where
  | accountLocked (until_ : Int)
  | invalidCredentials
  | internal
  deriving DecidableEq

/-- The audit log entries of a failed login. -/
inductive LoginAudit where
  | accountLocked (failedAttempts : Nat)
  | failed
  deriving DecidableEq

inductive LoginPhase where
  | reading
  | reserving (lockedUntil : Option Int)
  | checking (attempt count : Nat)
  | auditing (count : Nat)
  | resetting
  | succeeded
  | refused (e : LoginError)
  deriving DecidableEq

structure Grant where
  time : Int
  locks : Bool
  deriving DecidableEq

structure LoginServer where
  row : LoginRow := {}
  clock : Int
  requests : List LoginPhase := []
  audits : List LoginAudit := []
  granted : List Grant := []
  verified : List Nat := []
  deriving DecidableEq

inductive PasswordCheck where
  | valid
  | invalid
  | failed
  deriving DecidableEq

inductive LoginAction where
  | arrive
  | read (i : Nat)
  | reserve (i : Nat) (now : Int)
  | check (i : Nat) (outcome : PasswordCheck)
  | audit (i : Nat)
  | reset (i : Nat)
  /-- A statement or the task of the request fails. -/
  | fail (i : Nat)
  deriving DecidableEq

namespace LoginServer

variable (maxFailedLogins lockoutDurationSecs : Int)

def setPhase (s : LoginServer) (i : Nat) (p : LoginPhase) : LoginServer :=
  { s with requests := s.requests.set i p }

/-- The request reserves its attempt. A lock that was set after the row was read is reported with
the full lockout period. -/
def reserve (s : LoginServer) (i : Nat) (lockedUntil : Option Int) (now : Int) : LoginServer :=
  match reserveLoginAttempt maxFailedLogins lockoutDurationSecs now s.row with
  | .error () => { s with clock := now }.setPhase i (.refused .internal)
  | .ok (row, none) =>
    { s with row := row, clock := now }.setPhase i
      (.refused (.accountLocked ((lockedUntil.filter (now < ·)).getD
        (now + lockoutDurationSecs))))
  | .ok (row, some count) =>
    { s with
      row := row
      clock := now
      granted := s.granted ++ [Grant.mk now (maxFailedLogins ≤ count)] }.setPhase i
        (.checking s.granted.length count)

def check (s : LoginServer) (i attempt count : Nat) (outcome : PasswordCheck) : LoginServer :=
  let s := { s with verified := s.verified ++ [attempt] }
  match outcome with
  | .valid => s.setPhase i .resetting
  | .invalid => s.setPhase i (.auditing count)
  | .failed => s.setPhase i (.refused .internal)

/-- The failure is written to the audit log. -/
def audit (s : LoginServer) (i count : Nat) : LoginServer :=
  { s with
    audits := s.audits ++
      (if maxFailedLogins ≤ count then [LoginAudit.accountLocked count] else []) ++
        [LoginAudit.failed] }.setPhase i (.refused .invalidCredentials)

/-- The phases in which a request still runs. -/
def running : LoginPhase → Bool
  | .succeeded | .refused _ => false
  | _ => true

def step (s : LoginServer) : LoginAction → Option LoginServer
  | .arrive => some { s with requests := s.requests ++ [.reading] }
  | .read i =>
    match s.requests[i]? with
    | some .reading => some (s.setPhase i (.reserving s.row.lockedUntil))
    | _ => none
  | .reserve i now =>
    match s.requests[i]? with
    | some (.reserving lockedUntil) =>
      if s.clock ≤ now then
        some (s.reserve maxFailedLogins lockoutDurationSecs i lockedUntil now)
      else none
    | _ => none
  | .check i outcome =>
    match s.requests[i]? with
    | some (.checking attempt count) => some (s.check i attempt count outcome)
    | _ => none
  | .audit i =>
    match s.requests[i]? with
    | some (.auditing count) => some (s.audit maxFailedLogins i count)
    | _ => none
  | .reset i =>
    match s.requests[i]? with
    | some .resetting => some ({ s with row := {} }.setPhase i .succeeded)
    | _ => none
  | .fail i =>
    if (s.requests[i]?).any running then some (s.setPhase i (.refused .internal)) else none

/-! ## What a step does -/

variable {maxFailedLogins lockoutDurationSecs} {s t : LoginServer} {i : Nat} {p q : LoginPhase}
  {now : Int} {a : LoginAction} {l : List Grant}

/-- A step that grants no attempt and checks no password. -/
structure Quiet (s t : LoginServer) : Prop where
  clock : s.clock ≤ t.clock
  granted : t.granted = s.granted
  verified : t.verified = s.verified
  row : t.row = s.row ∨ .succeeded ∈ t.requests
  phase : t.requests = s.requests ++ [.reading] ∨
    ∃ i p, t.requests = s.requests.set i p ∧ s.requests[i]? ≠ some .succeeded ∧
      ∀ j count, p ≠ .checking j count

structure Grants (maxFailedLogins lockoutDurationSecs : Int) (s t : LoginServer) (i : Nat)
    (now : Int) : Prop where
  reserving : ∃ lockedUntil, s.requests[i]? = some (.reserving lockedUntil)
  clock : s.clock ≤ now
  unlocked : ∀ until_, s.row.lockedUntil = some until_ → until_ ≤ now
  eq : t = { s with
    row :=
      { failedLoginCount := s.row.failedLoginCount + 1
        lockedUntil :=
          if maxFailedLogins ≤ (s.row.failedLoginCount + 1 : Nat) then
            some (now + lockoutDurationSecs)
          else s.row.lockedUntil }
    clock := now
    granted := s.granted ++ [Grant.mk now (maxFailedLogins ≤ (s.row.failedLoginCount + 1 : Nat))]
    requests := s.requests.set i (.checking s.granted.length (s.row.failedLoginCount + 1)) }

/-- A step that checks the password of an attempt. -/
structure Checks (s t : LoginServer) (i attempt : Nat) : Prop where
  checking : ∃ count, s.requests[i]? = some (.checking attempt count)
  eq : ∃ p, t = { s with verified := s.verified ++ [attempt], requests := s.requests.set i p } ∧
    ∀ j count, p ≠ .checking j count

theorem Quiet.setPhase (hp : s.requests[i]? = some p) (hne : p ≠ .succeeded)
    (hq : ∀ j count, q ≠ .checking j count) {clock : Int} (hclock : s.clock ≤ clock)
    {audits : List LoginAudit} :
    Quiet s ({ s with clock := clock, audits := audits }.setPhase i q) where
  clock := hclock
  granted := rfl
  verified := rfl
  row := .inl rfl
  phase := .inr ⟨i, q, rfl, by rw [hp]; exact fun h => hne (some.inj h), hq⟩

theorem reserve_cases {lockedUntil : Option Int}
    (hp : s.requests[i]? = some (.reserving lockedUntil)) (hclock : s.clock ≤ now) :
    Quiet s (s.reserve maxFailedLogins lockoutDurationSecs i lockedUntil now) ∨
      Grants maxFailedLogins lockoutDurationSecs s
        (s.reserve maxFailedLogins lockoutDurationSecs i lockedUntil now) i now := by
  unfold reserve reserveLoginAttempt
  by_cases hlocked : s.row.lockedUntil.all (· ≤ now) = true
  · by_cases hroom : s.row.failedLoginCount + 1 ≤ i32Max
    · rw [if_pos hlocked, if_pos hroom]
      refine .inr ⟨⟨lockedUntil, hp⟩, hclock, fun until_ huntil => ?_, rfl⟩
      rw [huntil, all_some, decide_eq_true_eq] at hlocked
      exact hlocked
    · rw [if_pos hlocked, if_neg hroom]
      exact .inl (.setPhase hp nofun (by nofun) hclock)
  · rw [if_neg hlocked]
    exact .inl (.setPhase hp nofun (by nofun) hclock)

theorem checks_check {attempt count : Nat} (hp : s.requests[i]? = some (.checking attempt count))
    (outcome : PasswordCheck) : Checks s (s.check i attempt count outcome) i attempt := by
  refine ⟨⟨count, hp⟩, ?_⟩
  cases outcome with
  | valid => exact ⟨.resetting, rfl, nofun⟩
  | invalid => exact ⟨.auditing count, rfl, nofun⟩
  | failed => exact ⟨.refused .internal, rfl, nofun⟩

theorem step_cases (h : s.step maxFailedLogins lockoutDurationSecs a = some t) :
    Quiet s t ∨ (∃ i now, Grants maxFailedLogins lockoutDurationSecs s t i now) ∨
      ∃ i attempt, Checks s t i attempt := by
  cases a with
  | arrive =>
    rw [← some.inj h]
    exact .inl ⟨Int.le_refl _, rfl, rfl, .inl rfl, .inl rfl⟩
  | read i =>
    simp only [step] at h
    split at h
    · rename_i hp
      rw [← some.inj h]
      exact .inl (.setPhase hp nofun (by nofun) (Int.le_refl _))
    · cases h
  | reserve i now =>
    simp only [step] at h
    split at h
    · rename_i lockedUntil hp
      obtain ⟨hclock, h⟩ := ite_none_right_eq_some.1 h
      rw [← some.inj h]
      exact (reserve_cases hp hclock).imp_right fun hg => .inl ⟨i, now, hg⟩
    · cases h
  | check i outcome =>
    simp only [step] at h
    split at h
    · rename_i attempt count hp
      rw [← some.inj h]
      exact .inr (.inr ⟨i, attempt, checks_check hp outcome⟩)
    · cases h
  | audit i =>
    simp only [step] at h
    split at h
    · rename_i count hp
      rw [← some.inj h]
      exact .inl (.setPhase hp nofun (by nofun) (Int.le_refl _))
    · cases h
  | reset i =>
    simp only [step] at h
    split at h
    · rename_i hp
      rw [← some.inj h]
      have hlt : i < s.requests.length := lt_of_slot hp
      have hmem : .succeeded ∈ s.requests.set i .succeeded := mem_set hlt _
      exact .inl ⟨Int.le_refl _, rfl, rfl, .inr hmem,
        .inr ⟨i, .succeeded, rfl, by simp [hp], nofun⟩⟩
    · cases h
  | fail i =>
    obtain ⟨hrunning, h⟩ := ite_none_right_eq_some.1 h
    rw [← some.inj h]
    obtain ⟨p, hp, hrunning⟩ := (any_eq_true _ _).1 hrunning
    exact .inl (.setPhase hp (by rintro rfl; cases hrunning) (by nofun) (Int.le_refl _))

/-- A login that succeeded stays so. -/
theorem succeeded_step (h : s.step maxFailedLogins lockoutDurationSecs a = some t)
    (hs : .succeeded ∈ s.requests) : .succeeded ∈ t.requests := by
  obtain ⟨j, hj⟩ := mem_iff_getElem?.1 hs
  -- a request that is moved is in another phase
  have hset : ∀ i p, s.requests[i]? ≠ some .succeeded →
      .succeeded ∈ s.requests.set i p := by
    intro i p hne
    refine mem_iff_getElem?.2 ⟨j, ?_⟩
    rw [getElem?_set_ne (by rintro rfl; exact hne hj)]
    exact hj
  obtain hq | ⟨i, now, hg⟩ | ⟨i, attempt, hc⟩ := step_cases h
  · obtain hnew | ⟨i, p, heq, hne, -⟩ := hq.phase
    · rw [hnew]
      exact mem_append_left _ hs
    · rw [heq]
      exact hset i p hne
  · obtain ⟨lockedUntil, hp⟩ := hg.reserving
    rw [hg.eq]
    exact hset i _ (by simp [hp])
  · obtain ⟨count, hp⟩ := hc.checking
    obtain ⟨p, rfl, -⟩ := hc.eq
    exact hset i p (by simp [hp])

/-! ## What every step keeps -/

/-- Each granted attempt belongs to one request, and its password is checked once. -/
structure Owned (s : LoginServer) : Prop where
  granted : ∀ j ∈ s.verified, j < s.granted.length
  nodup : s.verified.Nodup
  checking : ∀ (i : Nat) j count, s.requests[i]? = some (.checking j count) →
    j < s.granted.length ∧ j ∉ s.verified
  distinct : ∀ (i i' : Nat) j count count', s.requests[i]? = some (.checking j count) →
    s.requests[i']? = some (.checking j count') → i = i'

/-- The counter counts the attempts, those from the limit on lock the account, and after each of
these the next is granted no earlier than a lockout period later. -/
structure Counted (maxFailedLogins lockoutDurationSecs : Int) (s : LoginServer) : Prop where
  count : s.row.failedLoginCount = s.granted.length
  locks : ∀ (j : Nat) g, s.granted[j]? = some g →
    g.locks = decide (maxFailedLogins ≤ (j + 1 : Nat))
  past : ∀ g ∈ s.granted, g.time ≤ s.clock
  spaced : s.granted.Pairwise fun g g' => g.locks = true → g.time + lockoutDurationSecs ≤ g'.time
  lockedUntil : s.row.lockedUntil =
    (s.granted.getLast?.filter (·.locks)).map fun g => g.time + lockoutDurationSecs

/-- The phases that wait for a password check are among the old ones. -/
theorem Owned.of_checking (hs : s.Owned) (hgranted : t.granted = s.granted)
    (hverified : t.verified = s.verified)
    (hphase : ∀ (i : Nat) j count, t.requests[i]? = some (.checking j count) →
      s.requests[i]? = some (.checking j count)) : t.Owned where
  granted := by rw [hgranted, hverified]; exact hs.granted
  nodup := by rw [hverified]; exact hs.nodup
  checking i j count h := by
    rw [hgranted, hverified]
    exact hs.checking i j count (hphase i j count h)
  distinct i i' j count count' h h' :=
    hs.distinct i i' j count count' (hphase i j count h) (hphase i' j count' h')

theorem checking_of_set {j k count : Nat} (hq : ∀ j count, q ≠ .checking j count)
    (h : (s.requests.set i q)[k]? = some (.checking j count)) :
    k ≠ i ∧ s.requests[k]? = some (.checking j count) := by
  obtain ⟨-, heq⟩ | hold := of_slot_set h
  · exact absurd heq.symm (hq j count)
  · exact hold

theorem Owned.quiet (hs : s.Owned) (hq : Quiet s t) : t.Owned := by
  refine hs.of_checking hq.granted hq.verified fun k j count h => ?_
  obtain hnew | ⟨i, p, heq, -, hp⟩ := hq.phase
  · rw [hnew, getElem?_append] at h
    split at h
    · exact h
    · have := mem_of_getElem? h
      rw [mem_singleton] at this
      cases this
  · rw [heq] at h
    exact (checking_of_set hp h).2

theorem Owned.grants (hs : s.Owned) (hg : Grants maxFailedLogins lockoutDurationSecs s t i now) :
    t.Owned := by
  rw [hg.eq]
  have hlen : ∀ {j}, j < s.granted.length →
      j < (s.granted ++ [Grant.mk now (maxFailedLogins ≤
        (s.row.failedLoginCount + 1 : Nat))]).length := by
    intro j hj
    rw [length_append]
    exact Nat.lt_add_right _ hj
  refine ⟨fun j hj => hlen (hs.granted j hj), hs.nodup, ?_, ?_⟩
  · intro k j count h
    obtain ⟨-, heq⟩ | ⟨-, hold⟩ := of_slot_set h
    · cases heq
      refine ⟨by simp, fun hmem => Nat.lt_irrefl _ (hs.granted _ hmem)⟩
    · exact ⟨hlen (hs.checking k j count hold).1, (hs.checking k j count hold).2⟩
  · -- the new attempt has a number that no other request holds
    intro k k' j count count' h h'
    obtain ⟨rfl, heq⟩ | ⟨-, hold⟩ := of_slot_set h
    · obtain ⟨rfl, -⟩ | ⟨-, hold'⟩ := of_slot_set h'
      · rfl
      · cases heq
        exact absurd (hs.checking k' _ count' hold').1 (Nat.lt_irrefl _)
    · obtain ⟨rfl, heq'⟩ | ⟨-, hold'⟩ := of_slot_set h'
      · cases heq'
        exact absurd (hs.checking k _ count hold).1 (Nat.lt_irrefl _)
      · exact hs.distinct k k' j count count' hold hold'

theorem Owned.checks {attempt : Nat} (hs : s.Owned) (hc : Checks s t i attempt) : t.Owned := by
  obtain ⟨count, hp⟩ := hc.checking
  obtain ⟨q, rfl, hq⟩ := hc.eq
  obtain ⟨hlt, hfresh⟩ := hs.checking i attempt count hp
  refine ⟨?_, ?_, ?_, ?_⟩
  · intro j hj
    obtain hj | hj := mem_append.1 hj
    · exact hs.granted j hj
    · rw [mem_singleton.1 hj]
      exact hlt
  · refine hs.nodup.append (nodup_singleton _) ?_
    rw [disjoint_singleton]
    exact hfresh
  · intro k j count' h
    obtain ⟨hne, hold⟩ := checking_of_set hq h
    refine ⟨(hs.checking k j count' hold).1, fun hmem => ?_⟩
    obtain hmem | hmem := mem_append.1 hmem
    · exact (hs.checking k j count' hold).2 hmem
    · rw [mem_singleton.1 hmem] at hold
      exact hne (hs.distinct k i attempt count' count hold hp)
  · intro k k' j count' count'' h h'
    exact hs.distinct k k' j count' count'' (checking_of_set hq h).2 (checking_of_set hq h').2

theorem Owned.step (hs : s.Owned) (h : s.step maxFailedLogins lockoutDurationSecs a = some t) :
    t.Owned := by
  obtain hq | ⟨i, now, hg⟩ | ⟨i, attempt, hc⟩ := step_cases h
  · exact hs.quiet hq
  · exact hs.grants hg
  · exact hs.checks hc

theorem Counted.of_row (hs : s.Counted maxFailedLogins lockoutDurationSecs)
    (hclock : s.clock ≤ t.clock) (hgranted : t.granted = s.granted) (hrow : t.row = s.row) :
    t.Counted maxFailedLogins lockoutDurationSecs where
  count := by rw [hrow, hgranted]; exact hs.count
  locks := by rw [hgranted]; exact hs.locks
  past g hg := by
    rw [hgranted] at hg
    exact Int.le_trans (hs.past g hg) hclock
  spaced := by rw [hgranted]; exact hs.spaced
  lockedUntil := by rw [hrow, hgranted]; exact hs.lockedUntil

/-- When the account is not locked, a lockout period has passed since every attempt that locked
it. -/
theorem Counted.elapsed (hs : s.Counted maxFailedLogins lockoutDurationSecs)
    (hclock : s.clock ≤ now) (hunlocked : ∀ until_, s.row.lockedUntil = some until_ → until_ ≤ now)
    {g : Grant} (hg : g ∈ s.granted) (hlocks : g.locks = true) :
    g.time + lockoutDurationSecs ≤ now := by
  obtain hnil | ⟨before, last, heq⟩ := eq_nil_or_concat' s.granted
  · rw [hnil] at hg
    cases hg
  have hlast : last ∈ s.granted := heq ▸ mem_concat_self
  rw [heq] at hg
  obtain hg | hg := mem_append.1 hg
  · have hspaced := hs.spaced
    rw [heq] at hspaced
    have hle := (pairwise_append.1 hspaced).2.2 g hg last (mem_singleton_self _) hlocks
    exact Int.le_trans hle (Int.le_trans (hs.past last hlast) hclock)
  · -- the lock of the last attempt is the one that is stored
    rw [mem_singleton.1 hg] at hlocks ⊢
    refine hunlocked _ ?_
    rw [hs.lockedUntil, heq, getLast?_concat, filter_some, if_pos hlocks]
    rfl

/-- Below the limit the account has no lock. -/
theorem Counted.lockedUntil_none (hs : s.Counted maxFailedLogins lockoutDurationSecs)
    (hlt : (s.granted.length : Int) < maxFailedLogins) : s.row.lockedUntil = none := by
  rw [hs.lockedUntil, map_eq_none_iff, filter_eq_none_iff]
  intro g hlast hlocks
  rw [getLast?_eq_getElem?] at hlast
  have hpos := lt_of_slot hlast
  rw [hs.locks _ g hlast, decide_eq_true_eq] at hlocks
  omega

theorem Counted.grants (hs : s.Counted maxFailedLogins lockoutDurationSecs)
    (hg : Grants maxFailedLogins lockoutDurationSecs s t i now) :
    t.Counted maxFailedLogins lockoutDurationSecs := by
  rw [hg.eq]
  refine ⟨?_, ?_, ?_, ?_, ?_⟩
  · simp [hs.count]
  · intro j g hj
    rw [getElem?_append] at hj
    split at hj
    · exact hs.locks j g hj
    · rename_i hge
      obtain ⟨hlt, hget⟩ := List.getElem?_eq_some_iff.1 hj
      have hj' : j = s.granted.length := by
        rw [length_singleton] at hlt
        omega
      subst hj'
      rw [getElem_singleton] at hget
      rw [← hget, hs.count]
  · intro g hmem
    obtain hmem | hmem := mem_append.1 hmem
    · exact Int.le_trans (hs.past g hmem) hg.clock
    · rw [mem_singleton.1 hmem]
  · refine pairwise_append.2 ⟨hs.spaced, pairwise_singleton _ _, ?_⟩
    intro g hmem g' hg' hlocks
    rw [mem_singleton.1 hg']
    exact hs.elapsed hg.clock hg.unlocked hmem hlocks
  · dsimp only
    rw [getLast?_concat, filter_some]
    dsimp only
    by_cases hmax : maxFailedLogins ≤ (s.row.failedLoginCount + 1 : Nat)
    · rw [if_pos hmax, if_pos (decide_eq_true hmax), map_some]
    · rw [if_neg hmax, if_neg (by rw [decide_eq_true_eq]; exact hmax), map_none]
      rw [hs.count] at hmax
      exact hs.lockedUntil_none (by omega)

/-- While no login has succeeded, the attempts are counted. -/
theorem counted_step (hs : .succeeded ∉ s.requests → s.Counted maxFailedLogins lockoutDurationSecs)
    (h : s.step maxFailedLogins lockoutDurationSecs a = some t) :
    .succeeded ∉ t.requests → t.Counted maxFailedLogins lockoutDurationSecs := by
  intro hnone
  have hcounted := hs fun hmem => hnone (succeeded_step h hmem)
  obtain hq | ⟨i, now, hg⟩ | ⟨i, attempt, hc⟩ := step_cases h
  · exact hcounted.of_row hq.clock hq.granted (hq.row.resolve_right hnone)
  · exact hcounted.grants hg
  · obtain ⟨p, rfl, -⟩ := hc.eq
    exact hcounted.of_row (Int.le_refl _) rfl rfl

/-! ## The number of guesses -/

/-- How many of the attempts that meet `p` had their password checked. -/
def guesses (s : LoginServer) (p : Grant → Bool) : Nat :=
  s.verified.countP fun j => s.granted[j]?.any p

theorem countP_range (l : List Grant) (p : Grant → Bool) :
    (List.range l.length).countP (fun j => l[j]?.any p) = l.countP p := by
  induction l using List.reverseRecOn with
  | nil => rfl
  | append_singleton l g ih =>
    rw [length_append, length_singleton, range_succ, countP_append,
      countP_append, ← ih]
    congr 1
    · refine countP_congr fun j hj => ?_
      rw [getElem?_append_left (mem_range.1 hj)]
    · simp

/-- Each attempt is one guess at most. -/
theorem Owned.guesses_le (hs : s.Owned) (p : Grant → Bool) : s.guesses p ≤ s.granted.countP p := by
  have hsub : List.Subperm s.verified (List.range s.granted.length) :=
    hs.nodup.subperm fun j hj => mem_range.2 (hs.granted j hj)
  exact (hsub.countP_le _).trans_eq (countP_range s.granted p)

/-- In a list with gaps of `gap` at least, an interval shorter than that holds one entry. -/
theorem countP_le_one_of_spaced {gap start : Int}
    (hspaced : l.Pairwise fun g g' => g.locks = true → g.time + gap ≤ g'.time) :
    l.countP (fun g => g.locks && (decide (start ≤ g.time) && decide (g.time < start + gap))) ≤
      1 := by
  induction l with
  | nil => exact Nat.zero_le 1
  | cons g l ih =>
    rw [pairwise_cons] at hspaced
    rw [countP_cons]
    split
    · rename_i hin
      simp only [Bool.and_eq_true, decide_eq_true_eq] at hin
      -- what comes later lies after the interval
      have hnone : l.countP (fun g => g.locks &&
          (decide (start ≤ g.time) && decide (g.time < start + gap))) = 0 := by
        refine countP_eq_zero.2 fun g' hg' hin' => ?_
        simp only [Bool.and_eq_true, decide_eq_true_eq] at hin'
        have := hspaced.1 g' hg' hin.1
        omega
      rw [hnone]
    · exact ih hspaced.2

/-- The `n`-th entry with gaps of `gap` comes `n` gaps after the first one. -/
theorem countP_mul_le_of_spaced {gap first last : Int}
    (hspaced : l.Pairwise fun g g' => g.locks = true → g.time + gap ≤ g'.time)
    (hfirst : ∀ g ∈ l, first ≤ g.time) (hlast : ∀ g ∈ l, g.time ≤ last) (hle : first ≤ last + gap) :
    first + l.countP (·.locks) * gap ≤ last + gap := by
  induction l generalizing first with
  | nil => simpa using hle
  | cons g l ih =>
    rw [pairwise_cons] at hspaced
    rw [countP_cons]
    have hg := hfirst g mem_cons_self
    have hg' := hlast g mem_cons_self
    split
    · rename_i hlocks
      have hrest : g.time + gap + l.countP (·.locks) * gap ≤ last + gap :=
        ih hspaced.2 (fun g' hmem => hspaced.1 g' hmem hlocks)
          (fun g' hmem => hlast g' (mem_cons_of_mem _ hmem)) (by omega)
      push_cast
      rw [Int.add_mul, Int.one_mul]
      omega
    · exact ih hspaced.2 (fun g' hmem => hfirst g' (mem_cons_of_mem _ hmem))
        (fun g' hmem => hlast g' (mem_cons_of_mem _ hmem)) hle

/-- Fewer attempts than the limit leave the account unlocked. -/
theorem Counted.countP_not_locks (hs : s.Counted maxFailedLogins lockoutDurationSecs) :
    s.granted.countP (!·.locks) ≤ (maxFailedLogins - 1).toNat := by
  rw [← countP_range, countP_eq_length_filter]
  -- such an attempt has one of the first numbers
  have hsub : List.Subperm ((List.range s.granted.length).filter fun j =>
      s.granted[j]?.any (!·.locks)) (List.range (maxFailedLogins - 1).toNat) := by
    refine (nodup_range.filter _).subperm fun j hj => ?_
    obtain ⟨g, hg, hlocks⟩ := (any_eq_true _ _).1 (mem_filter.1 hj).2
    rw [hs.locks j g hg, Bool.not_eq_true', decide_eq_false_iff_not] at hlocks
    rw [mem_range]
    omega
  exact hsub.length_le.trans_eq length_range

theorem Owned.verified_length (hs : s.Owned) :
    s.verified.length = s.guesses (·.locks) + s.guesses (!·.locks) := by
  rw [length_eq_countP_add_countP fun j => s.granted[j]?.any (·.locks)]
  refine congrArg (s.guesses (·.locks) + ·) (countP_congr fun j hj => ?_)
  rw [getElem?_eq_getElem (hs.granted j hj)]
  simp

/-- Without a lock the limit was not reached. -/
theorem Counted.length_le (hs : s.Counted maxFailedLogins lockoutDurationSecs)
    (hnone : s.row.lockedUntil = none) : s.granted.length ≤ (maxFailedLogins - 1).toNat := by
  rw [hs.lockedUntil, map_eq_none_iff, filter_eq_none_iff] at hnone
  obtain hnil | ⟨before, last, heq⟩ := eq_nil_or_concat' s.granted
  · rw [hnil]
    exact Nat.zero_le _
  have hlast : s.granted.getLast? = some last := by rw [heq, getLast?_concat]
  have hlocks := hnone last hlast
  rw [getLast?_eq_getElem?] at hlast
  rw [hs.locks _ last hlast, decide_eq_true_eq] at hlocks
  omega

/-- The attempts that lock the account, from the first one on, are a lockout period apart. -/
theorem Counted.countP_locks (hs : s.Counted maxFailedLogins lockoutDurationSecs)
    (hpos : 0 < lockoutDurationSecs) {first : Grant}
    (hfirst : s.granted.find? (·.locks) = some first) :
    (s.granted.countP (·.locks) : Int) - 1 ≤ (s.clock - first.time) / lockoutDurationSecs := by
  obtain ⟨hlocks, before, rest, heq, hbefore⟩ := find?_eq_some_iff_append.1 hfirst
  have hpast := hs.past
  have hspaced := hs.spaced
  rw [heq] at hpast hspaced ⊢
  have htail := (pairwise_append.1 hspaced).2.1
  have hstart : ∀ g ∈ first :: rest, first.time ≤ g.time := by
    intro g hg
    obtain rfl | hg := mem_cons.1 hg
    · exact Int.le_refl _
    · have := (pairwise_cons.1 htail).1 g hg hlocks
      omega
  have hend : ∀ g ∈ first :: rest, g.time ≤ s.clock :=
    fun g hg => hpast g (mem_append_right _ hg)
  have hmul := countP_mul_le_of_spaced htail hstart hend
    (by have := hend first mem_cons_self; omega)
  have hzero : before.countP (·.locks) = 0 :=
    countP_eq_zero.2 fun g hg => by simpa using hbefore g hg
  rw [countP_append, hzero, Nat.zero_add, Int.le_ediv_iff_mul_le hpos, Int.sub_mul,
    Int.one_mul]
  omega

/-- The run starts with an account that has no failed login. As long as no login succeeds, fewer
passwords than the limit are checked without a lock, and of the attempts that lock the account one
is granted in each lockout period at most. So up to the first lock as many passwords are checked
as the limit says, and after it one more for each period that has passed. -/
theorem logins_locked_out (maxFailedLogins lockoutDurationSecs clock : Int)
    (acts : List LoginAction) (s : LoginServer)
    (hrun : runFrom (step maxFailedLogins lockoutDurationSecs) { clock := clock } acts = some s)
    (hfailed : .succeeded ∉ s.requests) :
    (s.row.lockedUntil = none → s.verified.length ≤ (maxFailedLogins - 1).toNat) ∧
      s.guesses (!·.locks) ≤ (maxFailedLogins - 1).toNat ∧
      (∀ start, s.guesses (fun g => g.locks &&
        (decide (start ≤ g.time) && decide (g.time < start + lockoutDurationSecs))) ≤ 1) ∧
      (0 < lockoutDurationSecs → ∀ first, s.granted.find? (·.locks) = some first →
        (s.verified.length : Int) ≤
          max maxFailedLogins 1 + (s.clock - first.time) / lockoutDurationSecs) := by
  have hinit : (LoginServer.Owned { clock := clock }) :=
    ⟨nofun, nodup_nil, by simp, by simp⟩
  have howned := invariant_of_step (I := Owned) (fun _ _ _ hs h => hs.step h) hinit hrun
  have hcounted := invariant_of_step
    (I := fun s => .succeeded ∉ s.requests → s.Counted maxFailedLogins lockoutDurationSecs)
    (fun _ _ _ hs h => counted_step hs h)
    (fun _ => ⟨rfl, by simp, nofun, List.Pairwise.nil, rfl⟩) hrun hfailed
  have hbelow := Nat.le_trans (howned.guesses_le (!·.locks)) hcounted.countP_not_locks
  refine ⟨?_, hbelow, ?_, ?_⟩
  · intro hnone
    have hverified := (howned.nodup.subperm fun j hj =>
      mem_range.2 (howned.granted j hj)).length_le
    rw [length_range] at hverified
    exact Nat.le_trans hverified (hcounted.length_le hnone)
  · exact fun start => Nat.le_trans (howned.guesses_le _) (countP_le_one_of_spaced hcounted.spaced)
  · intro hpos first hfirst
    have hlocks := howned.guesses_le (·.locks)
    have hperiods := hcounted.countP_locks hpos hfirst
    rw [howned.verified_length]
    omega

/-- Limit two, lockout ten: three requests race and one of them is refused; after the period one
more password is checked. -/
def sampleLogins : List LoginAction :=
  [.arrive, .arrive, .arrive, .read 0, .read 1, .read 2, .reserve 0 100, .reserve 1 101,
    .reserve 2 102, .check 1 .invalid, .check 0 .invalid, .audit 1, .audit 0, .arrive, .read 3,
    .reserve 3 111, .check 3 .invalid]

theorem logins_locked_out_sampleLogins :
    ∃ s, runFrom (step 2 10) { clock := 100 } sampleLogins = some s ∧
      .succeeded ∉ s.requests ∧ s.verified = [1, 0, 2] ∧ s.guesses (!·.locks) ≤ 1 ∧
        (s.verified.length : Int) ≤ max 2 1 + (s.clock - 101) / 10 :=
  have hrun : runFrom (step 2 10) { clock := 100 } sampleLogins =
      some ((runFrom (step 2 10) { clock := 100 } sampleLogins).get (by decide)) :=
    (some_get _).symm
  have hlocked := logins_locked_out 2 10 100 sampleLogins _ hrun (by decide)
  ⟨_, hrun, by decide, by decide, hlocked.2.1,
    hlocked.2.2.2 (by decide) ⟨101, true⟩ (by decide)⟩

end LoginServer

end RivetLink.Server
