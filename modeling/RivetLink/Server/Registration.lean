import RivetLink.Foundation.Effects
import RivetLink.Foundation.Primitives
import RivetLink.Foundation.Text
import RivetLink.Server.RefreshTokens

/-!
# Registration

`register` inserts an organisation, a user, a refresh token and an entry of the audit log, one
statement after the other and without a transaction. What a failing call has inserted before stays:
the organisation of a request whose e-mail address is in use, for example
(`organization_left_behind`).

What a call draws at random or learns from outside is given by `Draws`: new ids, the hash of the
password, the signed tokens, and for each statement whether it fails. A statement that fails has had
no effect, or it was executed and its answer was lost.
-/

namespace RivetLink.Server

open List Option RivetLink.Foundation

structure OrganizationRow where
  id : Uuid
  name : Str
  deriving DecidableEq

structure UserRow where
  id : Uuid
  organizationId : Uuid
  email : Str
  displayName : Str
  passwordHash : Str
  deriving DecidableEq

structure AuditRow where
  id : Uuid
  organizationId : Uuid
  actorUserId : Option Uuid
  action : String
  deriving DecidableEq

structure Database where
  organizations : List OrganizationRow := []
  users : List UserRow := []
  refreshTokens : Table := []
  auditLogs : List AuditRow := []
  deriving DecidableEq

inductive StatementFault where
  | none
  /-- The statement is not executed. -/
  | refused
  /-- The statement is executed, but its answer does not arrive. -/
  | lost
  deriving DecidableEq

structure RegisterRequest where
  email : Str
  password : Str
  displayName : Str
  organizationName : Str
  deriving DecidableEq

structure AuthResponse where
  accessToken : Str
  refreshToken : Str
  userId : Uuid
  organizationId : Uuid
  deriving DecidableEq

structure Draws where
  organizationId : Uuid
  userId : Uuid
  familyId : Uuid
  refreshJti : Uuid
  auditId : Uuid
  now : Time
  expiresIn : Time
  /-- The hash of the password, if hashing works. -/
  passwordHash : Option Str
  /-- The access and the refresh token, if they can be signed. -/
  tokens : Option (Str × Str)
  onOrganization : StatementFault := .none
  onUser : StatementFault := .none
  onToken : StatementFault := .none
  onAudit : StatementFault := .none

abbrev ServerM := EStateM ServerError Database

def duplicateKey : ServerError := .database "duplicate key"
def missingKey : ServerError := .database "foreign key violation"
def connectionLost : ServerError := .database "connection lost"

def statement (fault : StatementFault) (f : Database → Except ServerError Database) :
    ServerM Unit := fun db =>
  match fault, f db with
  | .refused, _ => .error connectionLost db
  | _, .error e => .error e db
  | .none, .ok db' => .ok () db'
  | .lost, .ok db' => .error connectionLost db'

def insertOrganization (row : OrganizationRow) (db : Database) : Except ServerError Database :=
  if db.organizations.any (·.id = row.id) then .error duplicateKey
  else .ok { db with organizations := db.organizations ++ [row] }

/-- The e-mail addresses of all users differ, those of deleted users included. -/
def insertUser (row : UserRow) (db : Database) : Except ServerError Database :=
  if db.users.any (·.id = row.id) then .error duplicateKey
  else if db.users.any (·.email = row.email) then .error (.conflict "email already exists")
  else if !db.organizations.any (·.id = row.organizationId) then .error missingKey
  else .ok { db with users := db.users ++ [row] }

def insertRefreshToken (now expiresIn : Time) (jti userId familyId : Uuid) (db : Database) :
    Except ServerError Database :=
  if !db.users.any (·.id = userId) then .error missingKey
  else
    match RefreshTokens.insert now expiresIn jti userId familyId db.refreshTokens with
    | .ok table => .ok { db with refreshTokens := table }
    | .error e => .error e

def insertAuditLog (row : AuditRow) (db : Database) : Except ServerError Database :=
  if db.auditLogs.any (·.id = row.id) then .error duplicateKey
  else if !db.organizations.any (·.id = row.organizationId) then .error missingKey
  else if row.actorUserId.any fun u => !db.users.any (·.id = u) then .error missingKey
  else .ok { db with auditLogs := db.auditLogs ++ [row] }

/-- The first check of the request that fails. -/
def validateRegisterRequest (req : RegisterRequest) : Except ServerError Unit :=
  if req.email.chars.isEmpty || !req.email.chars.contains '@' ||
      254 < req.email.asBytes.bytes.length then
    .error (.validation "invalid email")
  else if req.password.asBytes.bytes.length < 8 || 128 < req.password.asBytes.bytes.length then
    .error (.validation "password must be 8-128 characters")
  else if req.displayName.chars.isEmpty then .error (.validation "display_name is required")
  else if req.organizationName.chars.isEmpty then
    .error (.validation "organization_name is required")
  else .ok ()

def createOrganization (d : Draws) (name : Str) : ServerM OrganizationRow := do
  statement d.onOrganization (insertOrganization ⟨d.organizationId, name⟩)
  return ⟨d.organizationId, name⟩

def createUser (d : Draws) (organizationId : Uuid) (email displayName passwordHash : Str) :
    ServerM UserRow := do
  statement d.onUser (insertUser ⟨d.userId, organizationId, email, displayName, passwordHash⟩)
  return ⟨d.userId, organizationId, email, displayName, passwordHash⟩

/-- Sign the first tokens of a new family and record the refresh token. -/
def issueNewFamily (d : Draws) (userId organizationId : Uuid) : ServerM AuthResponse := do
  match d.tokens with
  | none => throw (.internal "token creation failed")
  | some (access, refresh) =>
    statement d.onToken
      (insertRefreshToken d.now d.expiresIn d.refreshJti userId d.familyId)
    return ⟨access, refresh, userId, organizationId⟩

def createAuditLog (d : Draws) (organizationId userId : Uuid) (action : String) : ServerM Unit :=
  statement d.onAudit (insertAuditLog ⟨d.auditId, organizationId, some userId, action⟩)

def hashPassword (d : Draws) : ServerM Str :=
  match d.passwordHash with
  | none => throw (.internal "password hashing failed")
  | some hash => return hash

def validated (req : RegisterRequest) : ServerM Unit :=
  match validateRegisterRequest req with
  | .error e => throw e
  | .ok () => return ()

def register (d : Draws) (req : RegisterRequest) : ServerM AuthResponse := do
  validated req
  let passwordHash ← hashPassword d
  let org ← createOrganization d req.organizationName
  let user ← createUser d org.id req.email req.displayName passwordHash
  let resp ← issueNewFamily d user.id org.id
  createAuditLog d org.id user.id "user.registered"
  return resp

/-! ## What was added -/

variable {d : Draws} {req : RegisterRequest} {db db' s : Database} {fault : StatementFault}
  {f : Database → Except ServerError Database}

/-- The rows that were added to the three tables. -/
structure Grown (db : Database) (organizations : List OrganizationRow) (users : List UserRow)
    (tokens : Table) (s : Database) : Prop where
  organizations : s.organizations = db.organizations ++ organizations
  users : s.users = db.users ++ users
  tokens : s.refreshTokens = db.refreshTokens ++ tokens

theorem Grown.refl (db : Database) : Grown db [] [] [] db := by
  refine ⟨?_, ?_, ?_⟩ <;> simp

/-- A registration added one row of each kind, and they belong together. -/
def Registered (db s : Database) (resp : AuthResponse) : Prop :=
  ∃ org user token, Grown db [org] [user] [token] s ∧ user.organizationId = org.id ∧
    token.userId = user.id ∧ resp.userId = user.id ∧ resp.organizationId = org.id

variable {R P : Database → Prop} {Q : Unit → Database → Prop}

/-- A statement that returns was executed. -/
theorem ensures_statement (hok : ∀ s s', P s → fault = .none → f s = .ok s' → Q () s')
    (hfail : ∀ s, P s → fault = .refused ∨ (∃ e, f s = .error e) → R s)
    (hlost : ∀ s s', P s → fault = .lost → f s = .ok s' → R s') :
    Ensures P (statement fault f) Q R := by
  intro s hs
  unfold statement
  cases fault with
  | refused => exact hfail s hs (.inl rfl)
  | none =>
    cases hf : f s with
    | error e => exact hfail s hs (.inr ⟨e, hf⟩)
    | ok s' => exact hok s s' hs rfl hf
  | lost =>
    cases hf : f s with
    | error e => exact hfail s hs (.inr ⟨e, hf⟩)
    | ok s' => exact hlost s s' hs rfl hf

/-- A statement that can be executed and does not fail returns. -/
theorem ensures_statement_ok (hfault : fault = .none)
    (hok : ∀ s, P s → ∃ s', f s = .ok s' ∧ Q () s') : Ensures P (statement fault f) Q R := by
  intro s hs
  obtain ⟨s', hf, hq⟩ := hok s hs
  simp only [statement, hfault, hf]
  exact hq

theorem insertOrganization_eq_ok {row : OrganizationRow}
    (h : insertOrganization row db = .ok db') :
    db' = { db with organizations := db.organizations ++ [row] } := by
  unfold insertOrganization at h
  split at h
  · cases h
  · exact (Except.ok.inj h).symm

theorem insertUser_eq_ok {row : UserRow} (h : insertUser row db = .ok db') :
    db' = { db with users := db.users ++ [row] } := by
  unfold insertUser at h
  split at h
  · cases h
  · split at h
    · cases h
    · split at h
      · cases h
      · exact (Except.ok.inj h).symm

theorem insertRefreshToken_eq_ok {now expiresIn : Time} {jti userId familyId : Uuid}
    (h : insertRefreshToken now expiresIn jti userId familyId db = .ok db') :
    db' = { db with refreshTokens :=
      db.refreshTokens ++ [⟨jti, userId, familyId, now + expiresIn, none, none⟩] } := by
  unfold insertRefreshToken at h
  split at h
  · cases h
  · unfold RefreshTokens.insert at h
    split at h
    · rename_i table hinsert
      split at hinsert <;> cases hinsert
      exact (Except.ok.inj h).symm
    · cases h

theorem insertAuditLog_eq_ok {row : AuditRow} (h : insertAuditLog row db = .ok db') :
    db' = { db with auditLogs := db.auditLogs ++ [row] } := by
  unfold insertAuditLog at h
  split at h
  · cases h
  · split at h
    · cases h
    · split at h
      · cases h
      · exact (Except.ok.inj h).symm

/-! ## A call that returns -/

section Steps

variable {P : Database → Prop}

theorem ensures_validated : Ensures P (validated req)
    (fun _ s => P s ∧ validateRegisterRequest req = .ok ())
    (fun s => P s ∧ validateRegisterRequest req ≠ .ok ()) := by
  unfold validated
  split
  · rename_i e h
    refine ensures_throw fun _ hs => ⟨hs, ?_⟩
    rw [h]
    nofun
  · rename_i h
    exact ensures_pure fun _ hs => ⟨hs, h⟩

theorem ensures_hashPassword :
    Ensures P (hashPassword d) (fun hash s => P s ∧ d.passwordHash = some hash)
      (fun s => P s ∧ d.passwordHash = none) := by
  unfold hashPassword
  split
  · rename_i h
    exact ensures_throw fun _ hs => ⟨hs, h⟩
  · rename_i hash h
    exact ensures_pure fun _ hs => ⟨hs, h⟩

end Steps

section Rows

variable {os : List OrganizationRow} {us : List UserRow} {ts : Table}

theorem ensures_createOrganization (name : Str) :
    Ensures (· = db) (createOrganization d name)
      (fun o s => o = ⟨d.organizationId, name⟩ ∧ Grown db [o] [] [] s)
      (fun s =>
        (d.onOrganization = .refused ∨ ∃ org ∈ db.organizations, org.id = d.organizationId) ∨
        s.organizations = db.organizations ++ [⟨d.organizationId, name⟩]) := by
  unfold createOrganization
  refine (ensures_statement (fun s s' hs _ hf => ?_) (fun s hs hfail => .inl (hfail.imp id ?_))
    fun s s' hs _ hf => .inr ?_).bind fun _ => ensures_pure fun s hs => ⟨rfl, hs⟩
  · rw [insertOrganization_eq_ok hf, hs]
    exact ⟨rfl, (append_nil _).symm, (append_nil _).symm⟩
  · rintro ⟨e, he⟩
    unfold insertOrganization at he
    split at he
    · rename_i hany
      obtain ⟨org, horg, hid⟩ := any_eq_true.1 hany
      exact ⟨org, hs ▸ horg, of_decide_eq_true hid⟩
    · cases he
  · rw [insertOrganization_eq_ok hf, hs]

/-- From here on a failure leaves the organisation. -/
theorem ensures_createUser (organizationId : Uuid) (email displayName hash : Str) :
    Ensures (Grown db os us ts) (createUser d organizationId email displayName hash)
      (fun u s => u = ⟨d.userId, organizationId, email, displayName, hash⟩ ∧
        Grown db os (us ++ [u]) ts s) (fun s => s.organizations = db.organizations ++ os) := by
  unfold createUser
  refine (ensures_statement (fun s s' hs _ hf => ?_) (fun _ hs _ => hs.organizations)
    fun s s' hs _ hf => ?_).bind fun _ => ensures_pure fun s hs => ⟨rfl, hs⟩
  · rw [insertUser_eq_ok hf]
    refine ⟨hs.organizations, ?_, hs.tokens⟩
    rw [hs.users, append_assoc]
  · rw [insertUser_eq_ok hf]
    exact hs.organizations

theorem ensures_issueNewFamily (userId organizationId : Uuid) :
    Ensures (Grown db os us ts) (issueNewFamily d userId organizationId)
      (fun resp s => resp.userId = userId ∧ resp.organizationId = organizationId ∧
        ∃ token, token.userId = userId ∧ Grown db os us (ts ++ [token]) s)
      (fun s => s.organizations = db.organizations ++ os) := by
  unfold issueNewFamily
  split
  · exact ensures_throw fun _ hs => hs.organizations
  · refine (ensures_statement (fun s s' hs _ hf => ?_) (fun _ hs _ => hs.organizations)
      fun s s' hs _ hf => ?_).bind fun _ => ensures_pure fun s hs =>
        ⟨rfl, rfl, ⟨d.refreshJti, userId, d.familyId, d.now + d.expiresIn, none, none⟩, rfl, hs⟩
    · rw [insertRefreshToken_eq_ok hf]
      refine ⟨hs.organizations, hs.users, ?_⟩
      rw [hs.tokens, append_assoc]
    · rw [insertRefreshToken_eq_ok hf]
      exact hs.organizations

theorem ensures_createAuditLog (organizationId userId : Uuid) (action : String) :
    Ensures (Grown db os us ts) (createAuditLog d organizationId userId action)
      (fun _ => Grown db os us ts) (fun s => s.organizations = db.organizations ++ os) := by
  unfold createAuditLog
  refine ensures_statement (fun s s' hs _ hf => ?_) (fun _ hs _ => hs.organizations)
    fun s s' hs _ hf => ?_
  · rw [insertAuditLog_eq_ok hf]
    exact ⟨hs.organizations, hs.users, hs.tokens⟩
  · rw [insertAuditLog_eq_ok hf]
    exact hs.organizations

end Rows

/-- The call fails before it has inserted anything. -/
def FailsFirst (d : Draws) (req : RegisterRequest) (db : Database) : Prop :=
  validateRegisterRequest req ≠ .ok () ∨ d.passwordHash = none ∨ d.onOrganization = .refused ∨
    ∃ org ∈ db.organizations, org.id = d.organizationId

/-- A call that returns has added one row of each kind, and one that fails after the first insertion
has left the organisation. -/
theorem ensures_registered :
    Ensures (· = db) (register d req) (fun resp s => Registered db s resp)
      (fun s => FailsFirst d req db ∨
        s.organizations = db.organizations ++ [⟨d.organizationId, req.organizationName⟩]) := by
  unfold register
  refine (ensures_validated.mono (fun _ hs => hs) (fun _ _ h => h.1)
    fun _ h => .inl (.inl h.2)).bind fun _ => ?_
  refine (ensures_hashPassword.mono (fun _ hs => hs) (fun _ _ h => h.1)
    fun _ h => .inl (.inr (.inl h.2))).bind fun hash => ?_
  refine ((ensures_createOrganization req.organizationName).mono (fun _ hs => hs) (fun _ _ h => h)
    fun _ h => h.imp (fun hfirst => .inr (.inr hfirst)) id).bind fun org => ?_
  refine ensures_iff_forall.2 fun s₁ ⟨horg, h₁⟩ => ?_
  subst horg
  refine ((ensures_createUser d.organizationId req.email req.displayName hash).mono
    (fun s hs => hs ▸ h₁) (fun _ _ h => h) fun _ => .inr).bind fun user => ?_
  refine ensures_iff_forall.2 fun s₂ ⟨huser, h₂⟩ => ?_
  refine ((ensures_issueNewFamily user.id d.organizationId).mono
    (fun s hs => hs ▸ h₂) (fun _ _ h => h) fun _ => .inr).bind fun resp => ?_
  refine ensures_iff_forall.2 fun s₃ ⟨hrespUser, hrespOrg, token, htoken, h₃⟩ => ?_
  refine ((ensures_createAuditLog d.organizationId user.id "user.registered").mono
    (fun s hs => hs ▸ h₃) (fun _ _ h => h) fun _ => .inr).bind fun _ =>
      ensures_pure fun s hs => ?_
  refine ⟨_, user, token, hs, ?_, htoken, hrespUser, hrespOrg⟩
  rw [huser]

/-! ## A call that fails -/

/-- Nothing fails after the organisation was inserted. -/
structure FailsNever (d : Draws) (req : RegisterRequest) (db : Database) : Prop where
  organization : d.onOrganization ≠ .lost
  user : d.onUser = .none
  token : d.onToken = .none
  audit : d.onAudit = .none
  signed : d.tokens.isSome = true
  email : ∀ u ∈ db.users, u.email ≠ req.email
  userId : ∀ u ∈ db.users, u.id ≠ d.userId
  jti : ∀ row ∈ db.refreshTokens, row.jti ≠ d.refreshJti
  auditId : ∀ row ∈ db.auditLogs, row.id ≠ d.auditId

/-- No row was added to the three tables. -/
def SameRows (db s : Database) : Prop := Grown db [] [] [] s

/-- If the insertion of the organisation fails, it has no effect, and otherwise nothing fails any
more. -/
theorem ensures_first (hcond : FailsFirst d req db ∨ FailsNever d req db)
    (hvalid : validateRegisterRequest req = .ok ()) {hash : Str}
    (hhash : d.passwordHash = some hash) (name : Str) :
    Ensures (· = db) (createOrganization d name)
      (fun o s => o = ⟨d.organizationId, name⟩ ∧ FailsNever d req db ∧
        s = { db with organizations := db.organizations ++ [o] })
      (SameRows db) := by
  have hnever : ∀ {s : Database}, insertOrganization ⟨d.organizationId, name⟩ db = .ok s →
      d.onOrganization ≠ .refused → FailsNever d req db := by
    intro s hf hfault
    refine hcond.resolve_left fun hfirst => ?_
    obtain h | h | h | ⟨org, horg, hid⟩ := hfirst
    · exact h hvalid
    · cases h.symm.trans hhash
    · exact hfault h
    · have hany : db.organizations.any (·.id = d.organizationId) = true :=
        any_eq_true.2 ⟨org, horg, decide_eq_true hid⟩
      simp only [insertOrganization, hany, if_true] at hf
      cases hf
  unfold createOrganization
  refine (ensures_statement (fun s s' hs hfault hf => ?_) (fun s hs _ => ?_)
    fun s s' hs hlost hf => ?_).bind fun _ => ensures_pure fun s hs => ⟨rfl, hs⟩
  · subst hs
    exact ⟨hnever hf (by rw [hfault]; decide), insertOrganization_eq_ok hf⟩
  · rw [hs]
    exact Grown.refl db
  · subst hs
    exact absurd hlost (hnever hf (by rw [hlost]; decide)).organization

variable {α : Type}

theorem any_eq_false {l : List α} {p : α → Prop} [DecidablePred p] (h : ∀ x ∈ l, ¬ p x) :
    l.any (fun x => decide (p x)) = false := by
  rw [List.any_eq_false]
  intro x hx
  rw [decide_eq_true_iff]
  exact h x hx

/-- A row that is there is found by its id. -/
theorem any_id_eq {l : List α} {row : α} (key : α → Uuid) (hrow : row ∈ l) :
    l.any (fun x => decide (key x = key row)) = true :=
  any_eq_true.2 ⟨row, hrow, decide_eq_true rfl⟩

section Executed

variable {R : Database → Prop}

variable {org : OrganizationRow}

theorem ensures_createUser_ok {email displayName hash : Str} (hfault : d.onUser = .none)
    (hid : ∀ u ∈ s.users, u.id ≠ d.userId) (hemail : ∀ u ∈ s.users, u.email ≠ email)
    (horg : org ∈ s.organizations) :
    Ensures (· = s) (createUser d org.id email displayName hash)
      (fun u t => u = ⟨d.userId, org.id, email, displayName, hash⟩ ∧
        t = { s with users := s.users ++ [u] }) R := by
  unfold createUser
  refine (ensures_statement_ok hfault fun t ht => ⟨_, ?_, rfl⟩).bind
    fun _ => ensures_pure fun t ht => ⟨rfl, ht⟩
  subst ht
  simp only [insertUser, any_eq_false hid, any_eq_false hemail,
    any_id_eq OrganizationRow.id horg, Bool.not_true, Bool.false_eq_true, if_false]

variable {user : UserRow}

theorem ensures_issueNewFamily_ok {organizationId : Uuid} (hfault : d.onToken = .none)
    (hsigned : d.tokens.isSome = true) (hjti : ∀ row ∈ s.refreshTokens, row.jti ≠ d.refreshJti)
    (huser : user ∈ s.users) :
    Ensures (· = s) (issueNewFamily d user.id organizationId)
      (fun _ t => ∃ table, t = { s with refreshTokens := table }) R := by
  obtain ⟨⟨access, refresh⟩, htokens⟩ := isSome_iff_exists.1 hsigned
  simp only [issueNewFamily, htokens]
  refine (ensures_statement_ok (Q := fun _ t => ∃ table, t = { s with refreshTokens := table })
    hfault fun t ht => ?_).bind fun _ => ensures_pure fun t ht => ht
  subst ht
  simp only [insertRefreshToken, RefreshTokens.insert, any_eq_false hjti,
    any_id_eq UserRow.id huser, Bool.not_true, Bool.false_eq_true, if_false]
  exact ⟨_, rfl, _, rfl⟩

theorem ensures_createAuditLog_ok {action : String} (hfault : d.onAudit = .none)
    (hid : ∀ row ∈ s.auditLogs, row.id ≠ d.auditId) (horg : org ∈ s.organizations)
    (huser : user ∈ s.users) :
    Ensures (· = s) (createAuditLog d org.id user.id action) (fun _ _ => True) R := by
  unfold createAuditLog
  refine ensures_statement_ok hfault fun t ht => ?_
  subst ht
  simp only [insertAuditLog, any_eq_false hid, any_id_eq OrganizationRow.id horg,
    any_id_eq UserRow.id huser, any_some, Bool.not_true, Bool.false_eq_true, if_false]
  exact ⟨_, rfl, trivial⟩

end Executed

/-- A call that has added rows does not fail, if either it fails before it has inserted anything or
nothing fails at all. -/
theorem ensures_sameRows (hcond : FailsFirst d req db ∨ FailsNever d req db) :
    Ensures (· = db) (register d req) (fun _ _ => True) (SameRows db) := by
  have hstart : ∀ s, s = db → SameRows db s := by
    rintro s rfl
    exact Grown.refl s
  unfold register
  refine (ensures_validated.mono (fun _ hs => hs) (fun _ _ h => h) fun s hs =>
    hstart s hs.1).bind fun _ => ?_
  refine (ensures_hashPassword.mono (fun _ hs => hs) (fun _ _ h => h) fun s hs =>
    hstart s hs.1.1).bind fun hash => ?_
  refine ensures_iff_forall.2 fun s₀ ⟨⟨hs₀, hvalid⟩, hhash⟩ => ?_
  subst hs₀
  refine (ensures_first hcond hvalid hhash req.organizationName).bind fun org => ?_
  refine ensures_iff_forall.2 fun s₁ ⟨_, hnever, hs₁⟩ => ?_
  subst hs₁
  have horg : org ∈ s₀.organizations ++ [org] := mem_append_right _ mem_cons_self
  refine (ensures_createUser_ok (s := { s₀ with organizations := s₀.organizations ++ [org] })
    hnever.user hnever.userId hnever.email horg).bind fun user => ?_
  refine ensures_iff_forall.2 fun s₂ ⟨_, hs₂⟩ => ?_
  subst hs₂
  have huser : user ∈ s₀.users ++ [user] := mem_append_right _ mem_cons_self
  refine (ensures_issueNewFamily_ok (s := { s₀ with
    organizations := s₀.organizations ++ [org], users := s₀.users ++ [user] })
    hnever.token hnever.signed hnever.jti huser).bind fun resp => ?_
  refine ensures_iff_forall.2 fun s₃ ⟨table, hs₃⟩ => ?_
  subst hs₃
  exact (ensures_createAuditLog_ok (s := { s₀ with
    organizations := s₀.organizations ++ [org], users := s₀.users ++ [user],
    refreshTokens := table }) hnever.audit hnever.auditId horg huser).bind
    fun _ => ensures_pure fun _ _ => trivial

/-- A call that returns has added an organisation, a user of it and a refresh token of the user. A
call that fails has added none of them, if either it fails before it has inserted anything or
nothing fails after that; if it fails later, the organisation is left. -/
theorem registration_all_or_nothing (d : Draws) (req : RegisterRequest) (db : Database) :
    (∀ resp s, register d req db = .ok resp s → Registered db s resp) ∧
      ∀ e s, register d req db = .error e s →
        (SameRows db s ↔ FailsFirst d req db ∨ FailsNever d req db) ∧
        (¬FailsFirst d req db →
          s.organizations = db.organizations ++ [⟨d.organizationId, req.organizationName⟩]) := by
  have hends : Ends _ _ (register d req db) := ensures_eq_iff.1 ensures_registered
  constructor
  · intro resp s h
    rw [h] at hends
    exact hends
  · intro e s h
    rw [h] at hends
    refine ⟨⟨fun hsame => ?_, fun hcond => ?_⟩, hends.resolve_left⟩
    · refine .inl (hends.resolve_right fun hleft => ?_)
      rw [hsame.organizations] at hleft
      simp at hleft
    · have hrows := ensures_eq_iff.1 (ensures_sameRows hcond)
      rw [h] at hrows
      exact hrows

def sampleEmail : Str := ⟨['a', '@', 'b'], by decide⟩

def samplePassword : Str := ⟨['s', 'e', 'c', 'r', 'e', 't', '4', '2'], by decide⟩

def sampleRegister : RegisterRequest := ⟨sampleEmail, samplePassword, sampleEmail, sampleEmail⟩

/-- A call of which nothing fails. -/
def sampleDraws : Draws where
  organizationId := padTo 16 [1]
  userId := padTo 16 [2]
  familyId := padTo 16 [3]
  refreshJti := padTo 16 [4]
  auditId := padTo 16 [5]
  now := 0
  expiresIn := 100
  passwordHash := some samplePassword
  tokens := some (.empty, .empty)

/-- A call that fails at its first statement. -/
def sampleRefused : Draws := { sampleDraws with onOrganization := .refused }

theorem registration_all_or_nothing_sample :
    (∃ resp s, register sampleDraws sampleRegister {} = .ok resp s ∧ Registered {} s resp) ∧
      ∃ e s, register sampleRefused sampleRegister {} = .error e s ∧ SameRows {} s :=
  ⟨⟨_, _, rfl, (registration_all_or_nothing sampleDraws sampleRegister {}).1 _ _ rfl⟩,
    _, _, rfl, ((registration_all_or_nothing sampleRefused sampleRegister {}).2 _ _ rfl).1.2
      (.inl (.inr (.inr (.inl rfl))))⟩

/-- There is a user with the e-mail address already. -/
def sampleTaken : Database where
  organizations := [⟨padTo 16 [8], sampleEmail⟩]
  users := [⟨padTo 16 [9], padTo 16 [8], sampleEmail, sampleEmail, samplePassword⟩]

/-- The request is rejected, and the new organisation stays. -/
theorem organization_left_behind :
    ∃ s, register sampleDraws sampleRegister sampleTaken =
        .error (.conflict "email already exists") s ∧
      s.organizations = sampleTaken.organizations ++ [⟨padTo 16 [1], sampleEmail⟩] ∧
      ¬ SameRows sampleTaken s := by
  refine ⟨_, rfl, rfl, fun h => ?_⟩
  have hlen := congrArg List.length h.organizations
  revert hlen
  decide

end RivetLink.Server
