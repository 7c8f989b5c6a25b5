import Zbierak.IssueApi
import Zbierak.Settings
import Zbierak.Webhooks
import Zbierak.Projects

/-!
# Forms of the operator interface

Every handler behind a session and a form. What a handler wrote before it failed
stays written, so it is a computation over the store that may fail. Random
credentials and salted hashes arrive as arguments.
-/
namespace Zbierak.UiForms

open Settings

abbrev Handler (α : Type) := ExceptT AppError (StateM Db) α

/-- Run a transaction as one step of a handler. -/
def write {α : Type} (tx : Tx α) : Handler α := commit tx

theorem bind_apply {α β : Type} (x : Handler α) (f : α → Handler β) (db : Db) :
    (x >>= f) db = match x db with
      | (.ok a, db') => f a db'
      | (.error e, db') => (.error e, db') := by
  change (match x db with | (a, s) => ExceptT.bindCont f a s) = _
  cases x db with
  | mk a db' => cases a <;> rfl

theorem bind_get {α : Type} (f : Db → Handler α) (db : Db) : (get >>= f) db = f db db := by
  rw [bind_apply]
  rfl

/-- A handler succeeds only through its checks and its writes. -/
theorem bind_lift_success {α β : Type} {x : Except AppError α} {f : α → Handler β} {db db' : Db}
    {b : β} (h : ((liftM x : Handler α) >>= f) db = (.ok b, db')) :
    ∃ a, x = .ok a ∧ f a db = (.ok b, db') := by
  cases x with
  | error e => cases h
  | ok a => exact ⟨a, rfl, h⟩

theorem bind_write_success {α β : Type} {tx : Tx α} {f : α → Handler β} {db db' : Db} {b : β}
    (h : (write tx >>= f) db = (.ok b, db')) :
    ∃ a db₁, commit tx db = (.ok a, db₁) ∧ f a db₁ = (.ok b, db') := by
  rw [bind_apply, write] at h
  rcases hcommit : commit tx db with ⟨e | a, db₁⟩
  · rw [hcommit] at h
    cases h
  · rw [hcommit] at h
    exact ⟨a, db₁, rfl, h⟩

structure KeyForm where
  csrfToken : String
  name : String
  deriving DecidableEq, Repr

/-- A part of a multipart body; reading its content may fail. -/
structure Part where
  name : Option String
  fileName : Option String
  text : Except AppError String
  bytes : Except AppError Bytes

structure UiMultipart where
  csrfToken : String
  fileName : Option String
  bytes : Bytes
  deriving DecidableEq, Repr

/-- What was found in the parts so far. -/
structure Collected where
  csrfToken : Option String
  fileName : Option String
  bytes : Option Bytes
  deriving DecidableEq, Repr

/-- A later part of the same name replaces an earlier one. -/
def collectPart (found : Collected) (part : Part) : Except AppError Collected :=
  if part.name = some "csrf_token" then do
    let text ← part.text
    .ok { found with csrfToken := some text }
  else if part.name = some "avatar" then do
    let bytes ← part.bytes
    .ok { found with fileName := part.fileName, bytes := some bytes }
  else .ok found

/-- Parts in the order they arrive, until one cannot be read. -/
def collectParts : List (Except AppError Part) → Collected → Except AppError Collected
  | [], found => .ok found
  | part :: parts, found => do
    let part ← part
    let found ← collectPart found part
    collectParts parts found

def uiMultipart (parts : List (Except AppError Part)) : Except AppError UiMultipart := do
  let found ← collectParts parts ⟨none, none, none⟩
  match found.csrfToken with
  | none => .error (.badRequest "missing csrf token")
  | some csrfToken =>
    match found.bytes with
    | none => .error (.badRequest "missing avatar file")
    | some bytes => .ok ⟨csrfToken, found.fileName, bytes⟩

/-- Libraries, configuration and page templates. A page is rendered from the
store for the signed-in user. -/
structure Service where
  env : Crates
  resolve : NetPolicy.Resolver
  encrypt : Option (String → Except AppError String)
  normalizeUpload : Bytes → Except AppError Bytes
  projectPage : Db → Auth.Session → Int → String → Except AppError String
  settingsPage : Db → Auth.Session → String → Except AppError String
  userSettingsPage : Db → Auth.Session → Int → String → Except AppError String

inductive Response where
  | redirect (location : String)
  | page (html : String)
  | issues (response : IssueApi.Response)
  deriving DecidableEq, Repr

def uiSession (env : Crates) (cookie : Option String) (now : Int) : Handler Auth.Session := do
  let db ← get
  requireSession env db cookie now

/-- A profile is edited by its user and by the instance owner. -/
def requireProfileEditor (db : Db) (session : Auth.Session) (userId : Int) : Except AppError Int :=
  match db.users.get? userId with
  | none => .error .notFound
  | some _ =>
    if session.userId = userId ∨ isInstanceOwner db session.userId = true then .ok userId
    else .error .forbidden

/-- What `change_password` checks before it reads the stored password. -/
def checkChange (session : Auth.Session) (userId : Int) (form : PasswordForm) :
    Except AppError Unit := do
  Auth.checkCsrf session form.csrfToken
  if userId ≠ session.userId then .error .forbidden

/-- The hash of the new password, once the current one is verified. -/
def verifyCurrent (env : Crates) (db : Db) (session : Auth.Session) (argon2 : Except String String)
    (form : PasswordForm) : Except AppError String :=
  match db.users.get? session.userId with
  | none => .error (.database .rowNotFound)
  | some u =>
    if env.verifyPassword form.currentPassword u.passwordHash = false then .error .unauthorized
    else Forms.hashPassword argon2 form.newPassword

/-- The email that was loaded with the session. -/
def sessionEmail (db : Db) (session : Auth.Session) : String :=
  ((db.users.get? session.userId).map User.email).getD ""

section Handlers

variable (service : Service) (fault : Option AppError) (now : Int) (session : Auth.Session)
  (cookie : Option String)

def logout (form : CsrfForm) : Handler Response := do
  Auth.checkCsrf session form.csrfToken
  modify (destroySession service.env cookie)
  return .redirect "/login"

def createProject (form : Projects.ProjectForm) : Handler Response := do
  Auth.checkCsrf session form.csrfToken
  let (name, slug, description) ← Projects.checkProject form
  let _ ← write (Projects.createProjectTx session.userId name slug description)
  return .redirect s!"/projects/{slug}"

def createMember (slug : String) (form : Projects.MemberForm) (argon2 : Except String String) :
    Handler Response := do
  let db ← get
  let request ← Projects.authorizeMember session slug form db
  let request ← Projects.readActor request db
  write (Projects.writeMember request argon2)
  return .redirect s!"/projects/{slug}"

def createIngestKey (slug : String) (form : KeyForm) (random : String) : Handler Response := do
  Auth.checkCsrf session form.csrfToken
  let db ← get
  let projectId ← Auth.requireProjectRole db session.userId slug .admin
  let key := s!"zbk_{random}"
  let _ ← write (Projects.createIngestKey service.env projectId session.userId form.name key)
  let db ← get
  let html ← service.projectPage db session projectId key
  return .page html

def revokeIngestKey (slug : String) (keyId : Int) (form : CsrfForm) : Handler Response := do
  Auth.checkCsrf session form.csrfToken
  let db ← get
  let projectId ← Auth.requireProjectRole db session.userId slug .admin
  write (Projects.revokeIngestKey projectId session.userId keyId slug now)
  return .redirect s!"/projects/{slug}"

def createApiToken (form : TokenForm) (random : String) : Handler Response := do
  Auth.checkCsrf session form.csrfToken
  let name ← Forms.requiredText "name" form.name 100
  let token := apiTokenPrefix ++ random
  write (createApiTokenTx service.env fault session.userId name token)
  let db ← get
  let html ← service.settingsPage db session token
  return .page html

def revokeApiToken (tokenId : Int) (form : CsrfForm) : Handler Response := do
  Auth.checkCsrf session form.csrfToken
  write (revokeApiTokenTx fault now session.userId tokenId)
  return .redirect "/settings"

def changePassword (userId : Int) (form : PasswordForm) (argon2 : Except String String) :
    Handler Response := do
  checkChange session userId form
  let db ← get
  let newHash ← verifyCurrent service.env db session argon2 form
  write (changePasswordTx fault session.userId (sessionEmail db session) newHash
    (currentHash service.env cookie))
  return .redirect s!"/users/{userId}/settings"

/-- The settings page of the edited user, which must still be there. -/
def userSettingsFlashResponse (targetId : Int) (message : String) : Handler Response := do
  let db ← get
  if (db.users.get? targetId).isNone then throw .notFound
  let html ← service.userSettingsPage db session targetId message
  return .page html

def updateProfile (userId : Int) (form : ProfileForm) : Handler Response := do
  Auth.checkCsrf session form.csrfToken
  let db ← get
  let targetId ← requireProfileEditor db session userId
  let displayName ← Forms.requiredText "display name" form.displayName 100
  write (updateProfileTx fault session.userId targetId displayName)
  userSettingsFlashResponse service session targetId "Profile updated."

def uploadAvatar (userId : Int) (form : UiMultipart) : Handler Response := do
  Auth.checkCsrf session form.csrfToken
  let db ← get
  let targetId ← requireProfileEditor db session userId
  let png ← service.normalizeUpload form.bytes
  write (uploadAvatarTx service.env fault now session.userId targetId png)
  userSettingsFlashResponse service session targetId "Avatar updated."

def deleteAvatar (userId : Int) (form : CsrfForm) : Handler Response := do
  Auth.checkCsrf session form.csrfToken
  let db ← get
  let targetId ← requireProfileEditor db session userId
  write (deleteAvatarTx fault session.userId targetId)
  userSettingsFlashResponse service session targetId "Avatar removed."

def revokeOtherSessions (userId : Int) (form : CsrfForm) : Handler Response := do
  Auth.checkCsrf session form.csrfToken
  if userId ≠ session.userId then throw .forbidden
  write (revokeOtherSessionsTx fault session.userId (currentHash service.env cookie))
  return .redirect s!"/users/{userId}/settings"

def revokeSession (userId sessionId : Int) (form : CsrfForm) : Handler Response := do
  Auth.checkCsrf session form.csrfToken
  if userId ≠ session.userId then throw .forbidden
  write (revokeSessionTx fault session.userId sessionId)
  return .redirect s!"/users/{userId}/settings"

def createWebhook (slug : String) (form : Webhooks.WebhookForm) : Handler Response := do
  Auth.checkCsrf session form.csrfToken
  let db ← get
  let projectId ← Auth.requireProjectRole db session.userId slug .admin
  let endpoint ← Webhooks.checkWebhook service.env service.resolve service.encrypt projectId
    session.userId form
  write (Webhooks.createWebhookTx slug endpoint)
  return .redirect "/settings"

def deleteWebhook (slug : String) (webhookId : Int) (form : CsrfForm) : Handler Response := do
  Auth.checkCsrf session form.csrfToken
  let db ← get
  let projectId ← Auth.requireProjectRole db session.userId slug .admin
  write (Webhooks.deleteWebhookTx projectId session.userId webhookId slug)
  return .redirect "/settings"

end Handlers

/-- The routes behind a session and a form, with path, form and random choices. -/
inductive Request where
  | logout (form : CsrfForm)
  | createProject (form : Projects.ProjectForm)
  | createMember (slug : String) (form : Projects.MemberForm) (argon2 : Except String String)
  | createIngestKey (slug : String) (form : KeyForm) (random : String)
  | revokeIngestKey (slug : String) (keyId : Int) (form : CsrfForm)
  | changeIssueStatus (slug : String) (issueId : Int) (form : IssueApi.StatusForm)
  | addComment (slug : String) (issueId : Int) (form : IssueApi.CommentForm)
  | editCommentForm (slug : String) (issueId commentId : Int) (form : IssueApi.CommentForm)
  | deleteCommentForm (slug : String) (issueId commentId : Int) (form : CsrfForm)
  | resolveIssue (slug : String) (issueId : Int) (form : CsrfForm)
  | reopenIssue (slug : String) (issueId : Int) (form : CsrfForm)
  | updateIssueTagsForm (slug : String) (issueId : Int) (form : IssueApi.TagsForm)
  | updateProfile (userId : Int) (form : ProfileForm)
  | uploadAvatar (userId : Int) (body : List (Except AppError Part))
  | deleteAvatar (userId : Int) (form : CsrfForm)
  | changePassword (userId : Int) (form : PasswordForm) (argon2 : Except String String)
  | revokeOtherSessions (userId : Int) (form : CsrfForm)
  | revokeSession (userId sessionId : Int) (form : CsrfForm)
  | createWebhook (slug : String) (form : Webhooks.WebhookForm)
  | deleteWebhook (slug : String) (webhookId : Int) (form : CsrfForm)
  | createApiToken (form : TokenForm) (random : String)
  | revokeApiToken (tokenId : Int) (form : CsrfForm)

/-- A handler of the issue surface as one of this surface. -/
def onIssues (handler : Db → Except AppError IssueApi.Response × Db) : Handler Response := fun db =>
  let result := handler db
  (result.1.map .issues, result.2)

def handle (service : Service) (fault : Option AppError) (now : Int) (session : Auth.Session)
    (cookie : Option String) : Request → Handler Response
  | .logout form => logout service session cookie form
  | .createProject form => createProject session form
  | .createMember slug form argon2 => createMember session slug form argon2
  | .createIngestKey slug form random => createIngestKey service session slug form random
  | .revokeIngestKey slug keyId form => revokeIngestKey now session slug keyId form
  | .changeIssueStatus slug issueId form =>
    onIssues fun db => IssueApi.changeIssueStatus now db session slug issueId form
  | .addComment slug issueId form =>
    onIssues fun db => IssueApi.addComment now db session slug issueId form
  | .editCommentForm slug issueId commentId form =>
    onIssues fun db => IssueApi.editCommentForm now db session slug issueId commentId form
  | .deleteCommentForm slug issueId commentId form =>
    onIssues fun db => IssueApi.deleteCommentForm now db session slug issueId commentId form.csrfToken
  | .resolveIssue slug issueId form =>
    onIssues fun db => IssueApi.resolveIssue now db session slug issueId form.csrfToken
  | .reopenIssue slug issueId form =>
    onIssues fun db => IssueApi.reopenIssue now db session slug issueId form.csrfToken
  | .updateIssueTagsForm slug issueId form =>
    onIssues fun db => IssueApi.updateIssueTagsForm now db session slug issueId form
  | .updateProfile userId form => updateProfile service fault session userId form
  | .uploadAvatar userId body => do
    let form ← uiMultipart body
    uploadAvatar service fault now session userId form
  | .deleteAvatar userId form => deleteAvatar service fault session userId form
  | .changePassword userId form argon2 =>
    changePassword service fault session cookie userId form argon2
  | .revokeOtherSessions userId form => revokeOtherSessions service fault session cookie userId form
  | .revokeSession userId sessionId form => revokeSession fault session userId sessionId form
  | .createWebhook slug form => createWebhook service session slug form
  | .deleteWebhook slug webhookId form => deleteWebhook session slug webhookId form
  | .createApiToken form random => createApiToken service fault session form random
  | .revokeApiToken tokenId form => revokeApiToken fault now session tokenId form

/-- The session is resolved first; `input` is what path and body are read as. -/
def serve (service : Service) (fault : Option AppError) (now : Int) (cookie : Option String)
    (input : Except AppError Request) : Handler Response := do
  let session ← uiSession service.env cookie now
  let request ← input
  handle service fault now session cookie request

end Zbierak.UiForms
