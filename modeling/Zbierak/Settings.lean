import Zbierak.Auth
import Zbierak.Forms

/-!
# Accounts: tokens, credentials, profiles and sessions

Every transaction that changes an account records itself in the audit log before
it commits; `fault` is the error of that insert, if it fails. Passwords and
sessions are changed by their user alone, a profile also by the instance owner.
-/
namespace Zbierak.Settings

structure CsrfForm where
  csrfToken : String
  deriving DecidableEq, Repr

structure TokenForm where
  csrfToken : String
  name : String
  deriving DecidableEq, Repr

structure PasswordForm where
  csrfToken : String
  currentPassword : String
  newPassword : String
  deriving DecidableEq, Repr

structure ProfileForm where
  csrfToken : String
  displayName : String
  deriving DecidableEq, Repr

def apiTokenPrefix : String := "zpat_"

/-- The session that a cookie stands for, with the user it belongs to. -/
def session (env : Crates) (db : Db) (cookie : Option String) (now : Int) : Option Auth.Session :=
  cookie.bind fun token =>
    let live := fun (s : SessionRow) => decide (s.tokenHash = Auth.tokenHash env token ∧ now < s.expiresAt)
    match db.sessions.find? fun _ s => live s && (db.users.get? s.userId).isSome with
    | some (_, s) => some ⟨s.userId, s.csrfToken⟩
    | none => none

def requireSession (env : Crates) (db : Db) (cookie : Option String) (now : Int) :
    Except AppError Auth.Session :=
  match session env db cookie now with
  | some session => .ok session
  | none => .error .unauthorized

/-- The digest under which the current session is stored; empty without a cookie. -/
def currentHash (env : Crates) (cookie : Option String) : String :=
  (cookie.map (Auth.tokenHash env)).getD ""

/-- Delete the session of the cookie, whoever it belongs to. -/
def destroySession (env : Crates) (cookie : Option String) (db : Db) : Db :=
  match cookie with
  | some token =>
    { db with sessions := db.sessions.delete fun _ s => s.tokenHash = Auth.tokenHash env token }
  | none => db

/-- The first user ever created is the instance owner. -/
def isInstanceOwner (db : Db) (userId : Int) : Bool := (db.users.rows.map Prod.fst).min? = some userId

/-- The user of a live token; its last use is refreshed. -/
def apiTokenUser (env : Crates) (bearer : String) (now : Int) : Tx Int := fun db =>
  if bearer.startsWith apiTokenPrefix = false then .error .unauthorized
  else
    let hash := Auth.tokenHash env bearer
    match db.apiTokens.find? fun _ t => t.tokenHash = hash ∧ t.revokedAt = none with
    | none => .error .unauthorized
    | some (_, t) =>
      .ok ({ db with
          apiTokens := db.apiTokens.update (fun _ t => t.tokenHash = hash) fun t =>
            { t with lastUsedAt := some now } },
        t.userId)

section Transactions

variable (env : Crates) (fault : Option AppError) (now : Int) (userId : Int)

/-- `token` is the random credential that is shown once. -/
def createApiTokenTx (name token : String) : Tx Unit :=
  audited fault ⟨some userId, "api_token.created", some "api_token", none, .object []⟩ fun db =>
    let hash := Auth.tokenHash env token
    if (db.apiTokens.find? fun _ t => t.tokenHash = hash).isSome then
      .error (.database (.unique "api_tokens.token_hash"))
    else .ok ({ db with
        apiTokens := db.apiTokens.insert ⟨userId, name,
          Text.takeChars (Text.byteLen apiTokenPrefix + 6) token, hash, none, none⟩ }, ())

def revokeApiTokenTx (tokenId : Int) : Tx Unit :=
  audited fault ⟨some userId, "api_token.revoked", some "api_token", some (toString tokenId),
      .object []⟩ fun db =>
    .ok ({ db with
        apiTokens := db.apiTokens.update
          (fun id t => id = tokenId ∧ t.userId = userId ∧ t.revokedAt = none)
          fun t => { t with revokedAt := some now } }, ())

/-- Every session but the current one goes with the old password. -/
def changePasswordTx (email newHash current : String) : Tx Unit :=
  audited fault ⟨some userId, "user.password_changed", some "user", some (toString userId),
      .object [("email", .string email)]⟩ fun db =>
    .ok ({ db with
        users := db.users.update (fun id _ => id = userId) fun u => { u with passwordHash := newHash }
        sessions := db.sessions.delete fun _ s => s.userId = userId ∧ s.tokenHash ≠ current }, ())

/-- The audit details name the actor where it is not the user itself; keys in
order. -/
def withActor (targetId : Int) (details : List (String × Value)) : Value :=
  if targetId = userId then .object details
  else .object (("actor_id", .number (.int userId)) :: details)

def updateProfileTx (targetId : Int) (displayName : String) : Tx Unit :=
  audited fault ⟨some userId, "user.updated", some "user", some (toString targetId),
      withActor userId targetId [("field", .string "display_name")]⟩ fun db =>
    .ok ({ db with
        users := db.users.update (fun id _ => id = targetId) fun u => { u with displayName } }, ())

def uploadAvatarTx (targetId : Int) (png : Bytes) : Tx Unit :=
  let byteSize : Int := png.length
  let row : UserAvatar := ⟨targetId, "image/png", byteSize, env.sha256Hex png, png, now⟩
  audited fault ⟨some userId, "avatar.updated", some "user", some (toString targetId),
      withActor userId targetId [("bytes", .number (.int byteSize))]⟩ fun db =>
    .ok ({ db with
        userAvatars := Upsert.upsert (fun a => a.userId = targetId) (fun _ => row) row
          db.userAvatars }, ())

def deleteAvatarTx (targetId : Int) : Tx Unit :=
  audited fault ⟨some userId, "avatar.removed", some "user", some (toString targetId),
      withActor userId targetId []⟩ fun db =>
    .ok ({ db with userAvatars := db.userAvatars.filter fun a => a.userId ≠ targetId }, ())

def revokeOtherSessionsTx (current : String) : Tx Unit :=
  audited fault ⟨some userId, "user.sessions_revoked_others", some "user", some (toString userId),
      .object []⟩ fun db =>
    .ok ({ db with
        sessions := db.sessions.delete fun _ s => s.userId = userId ∧ s.tokenHash ≠ current }, ())

def revokeSessionTx (sessionId : Int) : Tx Unit :=
  audited fault ⟨some userId, "user.session_revoked", some "session", some (toString sessionId),
      .object []⟩ fun db =>
    .ok ({ db with
        sessions := db.sessions.delete fun id s => id = sessionId ∧ s.userId = userId }, ())

end Transactions

/-- Account transactions, with what their handlers have checked. -/
inductive Request where
  | logout (cookie : Option String)
  | useApiToken (bearer : String)
  | createApiToken (userId : Int) (name token : String)
  | revokeApiToken (userId tokenId : Int)
  | changePassword (userId : Int) (email newHash current : String)
  | updateProfile (userId targetId : Int) (displayName : String)
  | uploadAvatar (userId targetId : Int) (png : Bytes)
  | deleteAvatar (userId targetId : Int)
  | revokeOtherSessions (userId : Int) (current : String)
  | revokeSession (userId sessionId : Int)

def exec (env : Crates) (fault : Option AppError) (now : Int) : Request → Tx Unit
  | .logout cookie => fun db => .ok (destroySession env cookie db, ())
  | .useApiToken bearer => fun db => (apiTokenUser env bearer now db).map fun r => (r.1, ())
  | .createApiToken userId name token => createApiTokenTx env fault userId name token
  | .revokeApiToken userId tokenId => revokeApiTokenTx fault now userId tokenId
  | .changePassword userId email newHash current => changePasswordTx fault userId email newHash current
  | .updateProfile userId targetId displayName => updateProfileTx fault userId targetId displayName
  | .uploadAvatar userId targetId png => uploadAvatarTx env fault now userId targetId png
  | .deleteAvatar userId targetId => deleteAvatarTx fault userId targetId
  | .revokeOtherSessions userId current => revokeOtherSessionsTx fault userId current
  | .revokeSession userId sessionId => revokeSessionTx fault userId sessionId

/-- What no account transaction touches. -/
structure SameProjects (db db' : Db) : Prop where
  projects : db'.projects = db.projects
  memberships : db'.memberships = db.memberships
  ingestKeys : db'.ingestKeys = db.ingestKeys
  issues : db'.issues = db.issues
  rawEvents : db'.rawEvents = db.rawEvents
  events : db'.events = db.events
  comments : db'.comments = db.comments
  issueTags : db'.issueTags = db.issueTags
  activity : db'.activity = db.activity
  endpoints : db'.endpoints = db.endpoints
  outbox : db'.outbox = db.outbox

theorem sameProjects_audited {α : Type} {fault : Option AppError} {row : AuditRow} {write : Tx α}
    {db db' : Db} {a : α} (h : audited fault row write db = .ok (db', a))
    (hwrite : ∀ changed, write db = .ok (changed, a) → SameProjects db changed) :
    SameProjects db db' := by
  obtain ⟨-, changed, hchanged, rfl⟩ := audited_ok h
  have hs := hwrite changed hchanged
  exact ⟨hs.projects, hs.memberships, hs.ingestKeys, hs.issues, hs.rawEvents, hs.events, hs.comments,
    hs.issueTags, hs.activity, hs.endpoints, hs.outbox⟩

theorem exec_sameProjects {env : Crates} {fault : Option AppError} {now : Int} {request : Request}
    {db db' : Db} (h : exec env fault now request db = .ok (db', ())) : SameProjects db db' := by
  have hsame : ∀ {users sessions loginThrottle apiTokens userAvatars auditLog}, SameProjects db
      { db with users, sessions, loginThrottle, apiTokens, userAvatars, auditLog } :=
    ⟨rfl, rfl, rfl, rfl, rfl, rfl, rfl, rfl, rfl, rfl, rfl⟩
  cases request with
  | logout cookie =>
    cases h
    unfold destroySession
    split <;> exact hsame
  | useApiToken bearer =>
    simp only [exec, apiTokenUser] at h
    split at h
    · cases h
    · split at h
      · cases h
      · cases h
        exact hsame
  | createApiToken userId name token =>
    simp only [exec, createApiTokenTx] at h
    refine sameProjects_audited h fun changed hchanged => ?_
    split at hchanged
    · cases hchanged
    · cases hchanged
      exact hsame
  | revokeApiToken | changePassword | updateProfile | uploadAvatar | deleteAvatar
  | revokeOtherSessions | revokeSession =>
    simp only [exec, revokeApiTokenTx, changePasswordTx, updateProfileTx, uploadAvatarTx,
      deleteAvatarTx, revokeOtherSessionsTx, revokeSessionTx] at h
    refine sameProjects_audited h fun changed hchanged => ?_
    cases hchanged
    exact hsame

end Zbierak.Settings
