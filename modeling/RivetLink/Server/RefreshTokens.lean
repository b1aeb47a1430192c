import RivetLink.Foundation.Bytes
import RivetLink.Foundation.Transition

/-!
# Refresh tokens

The table of refresh tokens, the statements the server runs on it, and any number of concurrent
`refresh` requests. A request is a sequence of statements: it looks its token up, reads the user,
inserts the successor and marks the old row as revoked; a revoked token leads to `revoke_family`
instead. Each statement is atomic, requests interleave between statements, and a request may stop at
any point because a statement fails or because its connection is dropped.

`TokenStore.step` also has what else happens to the table: logins, which start a family, the hourly
deletion of old rows, `revoke_all_for_user`, and the clock. Token and family identifiers are random
UUIDs; that they are new is part of the step that draws them.

The access token and the claims that are copied from the old token to the new one play no part in
the rotation and are left out.
-/

namespace RivetLink.Server

open RivetLink.Foundation

/-- Seconds. -/
abbrev Time := Int

inductive ServerError where
  | auth (message : String)
  | invalidCredentials
  | accountLocked (lockedUntil : Time)
  | tokenExpired
  | invalidToken (message : String)
  | notFound (message : String)
  | validation (message : String)
  | forbidden (message : String)
  | rateLimited
  | conflict (message : String)
  | database (message : String)
  | config (message : String)
  | internal (message : String)
  deriving DecidableEq, Repr

/-! ## The table -/

structure RefreshTokenRow where
  jti : Uuid
  userId : Uuid
  familyId : Uuid
  expiresAt : Time
  revokedAt : Option Time
  replacedByJti : Option Uuid
  deriving DecidableEq

namespace RefreshTokenRow

def isRevoked (row : RefreshTokenRow) : Bool := row.revokedAt.isSome

def isExpired (now : Time) (row : RefreshTokenRow) : Bool := row.expiresAt ≤ now

end RefreshTokenRow

abbrev Table := List RefreshTokenRow

/-- Why a token cannot be rotated. -/
inductive RotationError where
  | unknown
  | expired
  | reused (familyId : Uuid)
  deriving DecidableEq

def reusedMessage : String := "refresh token reused — family revoked"

def RotationError.toServerError : RotationError → ServerError
  | .unknown => .invalidToken "unknown refresh token"
  | .expired => .tokenExpired
  | .reused _ => .invalidToken reusedMessage

namespace RefreshTokens

/-- `UPDATE ... WHERE`: the new table and the number of rows changed. -/
def update (cond : RefreshTokenRow → Bool) (set : RefreshTokenRow → RefreshTokenRow)
    (table : Table) : Table × Nat :=
  (table.map fun row => if cond row then set row else row, table.countP cond)

/-- Insert a fresh row; `jti` is the primary key. -/
def insert (now expiresIn : Time) (jti userId familyId : Uuid) (table : Table) :
    Except ServerError Table :=
  if table.any (·.jti = jti) then .error (.database "duplicate key")
  else .ok (table ++ [⟨jti, userId, familyId, now + expiresIn, none, none⟩])

def getByJti (jti : Uuid) (table : Table) : Option RefreshTokenRow := table.find? (·.jti = jti)

def markRevoked (now : Time) (jti : Uuid) (replacedBy : Option Uuid) (table : Table) : Table :=
  -- the caller does not learn whether a row was changed
  (update (fun row => row.jti = jti && row.revokedAt.isNone)
    (fun row => { row with revokedAt := some now, replacedByJti := replacedBy }) table).1

def revokeFamily (now : Time) (familyId : Uuid) : Table → Table × Nat :=
  update (fun row => row.familyId = familyId && row.revokedAt.isNone)
    fun row => { row with revokedAt := some now }

def revokeAllForUser (now : Time) (userId : Uuid) : Table → Table × Nat :=
  update (fun row => row.userId = userId && row.revokedAt.isNone)
    fun row => { row with revokedAt := some now }

/-- Delete what expired more than a day ago. -/
def deleteExpired (now : Time) (table : Table) : Table :=
  table.filter fun row => ¬ row.expiresAt < now - 86400

def validateForRotation (now : Time) (jti : Uuid) (table : Table) :
    Except RotationError RefreshTokenRow :=
  match getByJti jti table with
  | none => .error .unknown
  | some row =>
    -- a revoked token counts as reused even when it has expired
    if row.isRevoked then .error (.reused row.familyId)
    else if row.isExpired now then .error .expired
    else .ok row

end RefreshTokens

/-! ## Requests -/

structure Claims where
  sub : Uuid
  org : Uuid
  jti : Uuid
  deriving DecidableEq

/-- Where a request stands: what the statements so far have returned. -/
inductive Pc where
  | presented
  | reused (familyId : Uuid)
  | auditing (familyId : Uuid) (count : Nat)
  | validated (row : RefreshTokenRow)
  | creating (row : RefreshTokenRow) (org : Uuid)
  | inserted (row : RefreshTokenRow) (org successor : Uuid)
  | succeeded (row : RefreshTokenRow) (org successor : Uuid)
  | failed (e : ServerError)
  deriving DecidableEq

/-- A refresh request whose token has been decoded. -/
structure Refresh where
  claims : Claims
  pc : Pc
  deriving DecidableEq

/-- An entry of the audit log about a detected theft. -/
structure TheftAudit where
  org : Uuid
  userId : Uuid
  familyId : Uuid
  revokedCount : Nat
  deriving DecidableEq

/-- `issued` lists every token ever issued with its family. -/
structure TokenStore where
  now : Time
  tokens : Table
  requests : List Refresh
  audits : List TheftAudit
  issued : List (Uuid × Uuid)
  deriving DecidableEq

/-- A statement of a request, with what the database returns or the request draws. A request that
stops, because a statement failed or its future was dropped, takes `abort`. The last statement may
also take effect without the request learning of it. -/
inductive Statement where
  | validate
  | revokeFamily
  | audit
  | getUser (org : Option Uuid)
  | insert (jti : Uuid)
  | markRevoked (replied : Bool)
  | abort (e : ServerError)
  deriving DecidableEq

inductive Action where
  | arrive (claims : Claims)
  | request (i : Nat) (statement : Statement)
  | issueNewFamily (userId jti familyId : Uuid)
  | deleteExpired
  | revokeAllForUser (userId : Uuid)
  | tick (seconds : Nat)
  deriving DecidableEq

namespace TokenStore

/-- A server before the first login. -/
def new : TokenStore := ⟨0, [], [], [], []⟩

def goTo (s : TokenStore) (i : Nat) (r : Refresh) (pc : Pc) : TokenStore :=
  { s with requests := s.requests.set i { r with pc := pc } }

section Step

variable (expirySecs : Time)

/-- The next statement of request `i`. -/
def advance (s : TokenStore) (i : Nat) (r : Refresh) : Statement → Option TokenStore
  | .validate =>
    match r.pc with
    | .presented =>
      match RefreshTokens.validateForRotation s.now r.claims.jti s.tokens with
      -- nothing is locked: the row may change before the next statement
      | .ok row => some (s.goTo i r (.validated row))
      | .error (.reused familyId) => some (s.goTo i r (.reused familyId))
      | .error e => some (s.goTo i r (.failed e.toServerError))
    | _ => none
  | .revokeFamily =>
    match r.pc with
    | .reused familyId =>
      let (tokens, count) := RefreshTokens.revokeFamily s.now familyId s.tokens
      -- replays of a family that was revoked before are not audited again
      some { s.goTo i r (if count > 0 then .auditing familyId count
        else .failed (.invalidToken reusedMessage)) with tokens := tokens }
    | _ => none
  | .audit =>
    match r.pc with
    | .auditing familyId count =>
      some { s.goTo i r (.failed (.invalidToken reusedMessage)) with
        audits := s.audits ++ [⟨r.claims.org, r.claims.sub, familyId, count⟩] }
    | _ => none
  | .getUser org =>
    match r.pc, org with
    | .validated row, some org => some (s.goTo i r (.creating row org))
    | .validated _, none => some (s.goTo i r (.failed (.notFound "user not found")))
    | _, _ => none
  | .insert jti =>
    match r.pc with
    | .creating row org =>
      -- a fresh UUID has not been issued before
      if s.issued.any (·.1 = jti) then none
      else
        match RefreshTokens.insert s.now expirySecs jti row.userId row.familyId s.tokens with
        | .ok tokens => some { s.goTo i r (.inserted row org jti) with
            tokens := tokens, issued := s.issued ++ [(jti, row.familyId)] }
        | .error e => some (s.goTo i r (.failed e))
    | _ => none
  | .markRevoked replied =>
    match r.pc with
    | .inserted row org successor =>
      -- the update may have been made although its answer is lost
      some { s.goTo i r (if replied then .succeeded row org successor
        else .failed (.database "connection lost")) with
        tokens := RefreshTokens.markRevoked s.now row.jti (some successor) s.tokens }
    | _ => none
  | .abort e =>
    match r.pc with
    | .succeeded _ _ _ => none
    | .failed _ => none
    -- an error of a statement, or the future is dropped between two statements
    | _ => some (s.goTo i r (.failed e))

def step (s : TokenStore) : Action → Option TokenStore
  | .arrive claims => some { s with requests := s.requests ++ [⟨claims, .presented⟩] }
  | .request i statement => s.requests[i]?.bind fun r => s.advance expirySecs i r statement
  | .issueNewFamily userId jti familyId =>
    if s.issued.any (fun e => e.1 = jti || e.2 = familyId) then none
    else
      match RefreshTokens.insert s.now expirySecs jti userId familyId s.tokens with
      | .ok tokens => some { s with tokens := tokens, issued := s.issued ++ [(jti, familyId)] }
      -- the login fails and leaves no token
      | .error _ => some s
  | .deleteExpired => some { s with tokens := RefreshTokens.deleteExpired s.now s.tokens }
  | .revokeAllForUser userId =>
    some { s with tokens := (RefreshTokens.revokeAllForUser s.now userId s.tokens).1 }
  | .tick seconds => some { s with now := s.now + seconds }

end Step

end TokenStore

end RivetLink.Server
