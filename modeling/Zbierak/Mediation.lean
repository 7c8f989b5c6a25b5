import Zbierak.Credentials
import Zbierak.CsrfGate
import Zbierak.Privileges
import Zbierak.References
import Zbierak.Requests
import Zbierak.Lib.History

/-!
# Nothing is written without leave

Between its checks and its write a request waits, and a session may be closed, a
key revoked or a role lowered by then. What holds of every write is that the
credential its request arrived with was good, and the role high enough, at some
moments since the request arrived.
-/
namespace Zbierak.Mediation

open Requests Server
open History (Once)
open Reference (Has)

section Warrants

variable (env : Crates) (P : World → Prop)

/-- A session of the user that the cookie stands for. -/
def SignedIn (cookie : Option String) (session : Auth.Session) : Prop :=
  Once P fun w => ∃ id s token, cookie = some token ∧ w.db.sessions.get? id = some s ∧
    s.tokenHash = Auth.tokenHash env token ∧ w.clock < s.expiresAt ∧
    s.userId = session.userId ∧ s.csrfToken = session.csrfToken

/-- The user is signed in and the form carries the token of that session; or an
API token of the user is live. -/
def MadeBy (userId : Int) : Incoming → Prop
  | .form cookie (.ok request) =>
    ∃ csrf, CsrfGate.csrfToken request = some csrf ∧ SignedIn env P cookie ⟨userId, csrf⟩
  | .api headers _ => ∃ credential, Http.bearer env headers = .ok credential ∧ Once P fun w =>
    ∃ id, Keyring.Live Credentials.tokenColumns id userId (Auth.tokenHash env credential) w.db.apiTokens
  | _ => False

/-- The project in the path of a form. -/
def formSlug : UiForms.Request → Option String
  | .createMember slug _ _ | .createIngestKey slug _ _ | .revokeIngestKey slug _ _
  | .changeIssueStatus slug _ _ | .resolveIssue slug _ _ | .reopenIssue slug _ _
  | .addComment slug _ _ | .editCommentForm slug _ _ _ | .deleteCommentForm slug _ _ _
  | .updateIssueTagsForm slug _ _ | .createWebhook slug _ | .deleteWebhook slug _ _ => some slug
  | _ => none

def callSlug : Call → Option String
  | .read => none
  | .updateIssueTags slug _ _ | .createComment slug _ _ | .updateComment slug _ _ _
  | .deleteComment slug _ _ => some slug

def slug : Incoming → Option String
  | .form _ (.ok request) => formSlug request
  | .api _ call => callSlug call
  | .event request _ => some request.slug
  | _ => none

/-- The user has the role in the project that the path names. -/
def Acts (i : Incoming) (projectId userId : Int) (minimum : ProjectRole) : Prop :=
  ∃ name, slug i = some name ∧ Once P fun w => Auth.Names w.db name projectId ∧
    ∃ role, minimum ≤ role ∧ Auth.Member w.db projectId userId role

/-- The form of a login passed the checks that come first. -/
def Unlocked (i : Incoming) (email : String) : Prop :=
  ∃ form token csrf sessionDays, i = .login form.csrfToken form token csrf sessionDays ∧
    form.csrfToken ≠ "" ∧ form.email = email ∧
    Once P fun w => Auth.loginLocked env w.db email w.clock = false

/-- The user with this email has this password. -/
def Knows (email password : String) (userId : Int) : Prop :=
  Once P fun w => ∃ u, w.db.users.get? userId = some u ∧ nocaseEq u.email (Text.trim email) = true ∧
    env.verifyPassword password u.passwordHash = true

def LoggedIn (i : Incoming) (userId : Int) : Prop :=
  ∃ form token csrf sessionDays, i = .login form.csrfToken form token csrf sessionDays ∧
    Unlocked env P i form.email ∧ Knows env P form.email form.password userId

def Account (i : Incoming) : Settings.Request → Prop
  | .logout cookie => (∃ input, i = .form cookie input) ∧ ∃ userId, MadeBy env P userId i
  | .useApiToken _ => ∃ userId, MadeBy env P userId i
  | .createApiToken userId _ _ | .revokeApiToken userId _ | .revokeOtherSessions userId _
  | .revokeSession userId _ => MadeBy env P userId i
  | .changePassword userId _ _ _ => MadeBy env P userId i ∧
    ∃ cookie form argon2, i = .form cookie (.ok (.changePassword userId form argon2)) ∧
      Once P fun w => ∃ u, w.db.users.get? userId = some u ∧
        env.verifyPassword form.currentPassword u.passwordHash = true
  | .updateProfile userId targetId _ | .uploadAvatar userId targetId _
  | .deleteAvatar userId targetId => MadeBy env P userId i ∧ Once P fun w =>
    Has w.db.users targetId ∧ (userId = targetId ∨ Settings.isInstanceOwner w.db userId = true)

/-- What must have been the case for a request to write. -/
def Warranted (i : Incoming) : Request → Prop
  | .ingest req body storageId => ∃ request credential, i = .event request storageId ∧
    body = request.body ∧ body.length ≤ Http.eventBodyLimit ∧
    Http.bearer env request.headers = .ok credential ∧ Once P fun w =>
      Auth.Names w.db request.slug req.projectId ∧ Keyring.Live Credentials.keyColumns req.keyId
        req.projectId (Auth.tokenHash env credential) w.db.ingestKeys
  | .setIssueStatus projectId _ userId _ | .replaceIssueTags projectId _ userId _
  | .insertComment projectId userId _ _ | .updateComment projectId userId _ _ _
  | .deleteComment projectId userId _ _ =>
    MadeBy env P userId i ∧ Acts P i projectId userId .developer
  | .createIngestKey projectId userId _ _ | .revokeIngestKey projectId userId _ _
  | .deleteWebhook projectId userId _ _ => MadeBy env P userId i ∧ Acts P i projectId userId .admin
  | .createWebhook _ e => MadeBy env P e.createdBy i ∧ Acts P i e.projectId e.createdBy .admin
  | .writeMember request _ => MadeBy env P request.actorId i ∧
    Acts P i request.projectId request.actorId .admin ∧
    (.admin ≤ request.role → Once P fun w =>
      Auth.membershipRole w.db request.projectId request.actorId = some .owner)
  | .createProject session _ => MadeBy env P session.userId i
  | .bootstrap argon2 form => (∃ token csrf sessionDays,
      i = .bootstrap argon2 form token csrf sessionDays) ∧ Once P fun w => w.db.users.rows = []
  | .createSession userId _ _ _ => LoggedIn env P i userId ∨
    ∃ argon2 form token csrf sessionDays, i = .bootstrap argon2 form token csrf sessionDays ∧
      Once P (fun w => w.db.users.rows = []) ∧ Once P fun w => Has w.db.users userId
  | .loginFailure email | .loginSuccess email => Unlocked env P i email
  | .recordLogin row => (∃ email, Unlocked env P i email) ∧
    ∀ userId ∈ row.userId, Once P fun w => Has w.db.users userId
  | .account request => Account env P i request

/-- What is known of the user that a login looks up. -/
def Looked (form : Login.LoginForm) : Login.Stage → Prop
  | .checked | .unknown => True
  | .found userId hash => Once P fun w => ∃ u, w.db.users.get? userId = some u ∧
    nocaseEq u.email (Text.trim form.email) = true ∧ u.passwordHash = hash
  | .rejected userId => Once P fun w => Has w.db.users userId
  | .accepted userId => Knows env P form.email form.password userId

/-- How a request has come to its stage. -/
def Grounded (i : Incoming) : Stage → Prop
  | .arrived incoming => i = incoming
  | .signedIn cookie session request => i = .form cookie (.ok request) ∧ SignedIn env P cookie session
  | .member authorized _ => MadeBy env P authorized.actorId i ∧
    Acts P i authorized.projectId authorized.actorId .admin
  | .principal userId call => (∃ headers, i = .api headers call) ∧ MadeBy env P userId i
  | .attempt a token csrf sessionDays => i = .login a.form.csrfToken a.form token csrf sessionDays ∧
    Unlocked env P i a.form.email ∧ Looked env P a.form a.stage
  | .ready writes => ∀ r ∈ writes, Warranted env P i r

end Warrants

section Mono

variable {env : Crates} {P Q : World → Prop} {i : Incoming}

theorem SignedIn.mono (hsub : ∀ w, P w → Q w) {cookie : Option String} {session : Auth.Session}
    (h : SignedIn env P cookie session) : SignedIn env Q cookie session := Once.mono h hsub

theorem MadeBy.mono (hsub : ∀ w, P w → Q w) {userId : Int} (h : MadeBy env P userId i) :
    MadeBy env Q userId i := by
  cases i with
  | form cookie input =>
    cases input with
    | error e => exact h
    | ok request =>
      obtain ⟨csrf, hcsrf, hsigned⟩ := h
      exact ⟨csrf, hcsrf, hsigned.mono hsub⟩
  | api headers call =>
    obtain ⟨credential, hbearer, hlive⟩ := h
    exact ⟨credential, hbearer, hlive.mono hsub⟩
  | event | login | bootstrap => exact h

theorem Acts.mono (hsub : ∀ w, P w → Q w) {projectId userId : Int} {minimum : ProjectRole}
    (h : Acts P i projectId userId minimum) : Acts Q i projectId userId minimum := by
  obtain ⟨name, hname, hrole⟩ := h
  exact ⟨name, hname, hrole.mono hsub⟩

theorem Unlocked.mono (hsub : ∀ w, P w → Q w) {email : String} (h : Unlocked env P i email) :
    Unlocked env Q i email := by
  obtain ⟨form, token, csrf, sessionDays, hi, hcookie, hemail, hunlocked⟩ := h
  exact ⟨form, token, csrf, sessionDays, hi, hcookie, hemail, hunlocked.mono hsub⟩

theorem Knows.mono (hsub : ∀ w, P w → Q w) {email password : String} {userId : Int}
    (h : Knows env P email password userId) : Knows env Q email password userId := Once.mono h hsub

theorem LoggedIn.mono (hsub : ∀ w, P w → Q w) {userId : Int} (h : LoggedIn env P i userId) :
    LoggedIn env Q i userId := by
  obtain ⟨form, token, csrf, sessionDays, hi, hunlocked, hknows⟩ := h
  exact ⟨form, token, csrf, sessionDays, hi, hunlocked.mono hsub, hknows.mono hsub⟩

theorem Account.mono (hsub : ∀ w, P w → Q w) {request : Settings.Request}
    (h : Account env P i request) : Account env Q i request := by
  cases request with
  | logout cookie => exact ⟨h.1, h.2.imp fun _ => MadeBy.mono hsub⟩
  | useApiToken bearer => exact h.imp fun _ => MadeBy.mono hsub
  | createApiToken | revokeApiToken | revokeOtherSessions | revokeSession => exact MadeBy.mono hsub h
  | changePassword userId email newHash current =>
    obtain ⟨hmade, cookie, form, argon2, hi, hverified⟩ := h
    exact ⟨hmade.mono hsub, cookie, form, argon2, hi, hverified.mono hsub⟩
  | updateProfile | uploadAvatar | deleteAvatar => exact ⟨h.1.mono hsub, h.2.mono hsub⟩

/-- A warrant that was good once stays so. -/
theorem Warranted.mono (hsub : ∀ w, P w → Q w) {r : Request} (h : Warranted env P i r) :
    Warranted env Q i r := by
  cases r with
  | ingest req body storageId =>
    obtain ⟨request, credential, hi, hbody, hlimit, hbearer, hlive⟩ := h
    exact ⟨request, credential, hi, hbody, hlimit, hbearer, hlive.mono hsub⟩
  | setIssueStatus | replaceIssueTags | insertComment | updateComment | deleteComment
  | createIngestKey | revokeIngestKey | deleteWebhook | createWebhook =>
    exact ⟨h.1.mono hsub, h.2.mono hsub⟩
  | writeMember request argon2 =>
    exact ⟨h.1.mono hsub, h.2.1.mono hsub, fun hrole => (h.2.2 hrole).mono hsub⟩
  | createProject session form => exact MadeBy.mono hsub h
  | bootstrap argon2 form => exact ⟨h.1, h.2.mono hsub⟩
  | createSession userId token csrf sessionDays =>
    rcases h with hlogin | ⟨argon2, form, token, csrf, sessionDays, hi, hfirst, hthere⟩
    · exact .inl (hlogin.mono hsub)
    · exact .inr ⟨argon2, form, token, csrf, sessionDays, hi, hfirst.mono hsub, hthere.mono hsub⟩
  | loginFailure email | loginSuccess email => exact Unlocked.mono hsub h
  | recordLogin row =>
    exact ⟨h.1.imp fun _ => Unlocked.mono hsub, fun userId hid => (h.2 userId hid).mono hsub⟩
  | account request => exact Account.mono hsub h

theorem Grounded.mono (hsub : ∀ w, P w → Q w) {stage : Stage} (h : Grounded env P i stage) :
    Grounded env Q i stage := by
  cases stage with
  | arrived incoming => exact h
  | signedIn cookie session request => exact ⟨h.1, h.2.mono hsub⟩
  | member authorized argon2 => exact ⟨h.1.mono hsub, h.2.mono hsub⟩
  | principal userId call => exact ⟨h.1, h.2.mono hsub⟩
  | attempt a token csrf sessionDays =>
    refine ⟨h.1, h.2.1.mono hsub, ?_⟩
    have hlooked := h.2.2
    obtain ⟨form, stage⟩ := a
    cases stage with
    | checked | unknown => trivial
    | found | rejected | accepted => exact Once.mono hlooked hsub
  | ready writes => exact fun r hr => (h r hr).mono hsub

end Mono

section Checks

variable {service : UiForms.Service} {P : World → Prop} {w : World} {i : Incoming}

theorem checkCsrf_ok {session : Auth.Session} {supplied : String} {u : Unit}
    (h : Auth.checkCsrf session supplied = .ok u) : some supplied = some session.csrfToken := by
  unfold Auth.checkCsrf at h
  split at h
  · next heq => rw [heq]
  · cases h

/-- Every form that goes on carries the token of its session. -/
theorem checkForm_csrf {db : Db} {session : Auth.Session} {cookie : Option String}
    {request : UiForms.Request} {stage : Stage}
    (h : checkForm service db session cookie request = .ok stage) :
    CsrfGate.csrfToken request = some session.csrfToken := by
  cases request with
  | uploadAvatar userId body =>
    obtain ⟨form, hform, h⟩ := Except.bind_ok h
    obtain ⟨_, hcsrf, -⟩ := Except.bind_ok h
    exact (CsrfGate.uiMultipart_csrfToken hform).trans (checkCsrf_ok hcsrf)
  | createMember slug form argon2 =>
    obtain ⟨authorized, hauthorized, -⟩ := Except.bind_ok h
    obtain ⟨_, hcsrf, -⟩ := Except.bind_ok hauthorized
    exact checkCsrf_ok hcsrf
  | changePassword userId form argon2 =>
    obtain ⟨_, hchange, -⟩ := Except.bind_ok h
    obtain ⟨_, hcsrf, -⟩ := Except.bind_ok hchange
    exact checkCsrf_ok hcsrf
  | changeIssueStatus slug issueId form =>
    dsimp only [checkForm] at h
    split at h
    · cases h
    · obtain ⟨_, hcsrf, -⟩ := Except.bind_ok h
      exact checkCsrf_ok hcsrf
  | logout | createProject | createIngestKey | revokeIngestKey | resolveIssue | reopenIssue | addComment
  | editCommentForm | deleteCommentForm | updateIssueTagsForm | updateProfile | deleteAvatar
  | revokeOtherSessions | revokeSession | createWebhook | deleteWebhook | createApiToken
  | revokeApiToken =>
    obtain ⟨_, hcsrf, -⟩ := Except.bind_ok h
    exact checkCsrf_ok hcsrf

theorem editor_ok {db : Db} {session : Auth.Session} {userId targetId : Int}
    (h : UiForms.requireProfileEditor db session userId = .ok targetId) : Has db.users targetId ∧
      (session.userId = targetId ∨ Settings.isInstanceOwner db session.userId = true) := by
  unfold UiForms.requireProfileEditor at h
  split at h
  · cases h
  · next u hu =>
    split at h
    · next heditor =>
      cases h
      exact ⟨Reference.has_of_get? hu, heditor⟩
    · cases h

theorem checkWebhook_owner {env : Crates} {resolve : NetPolicy.Resolver}
    {encrypt : Option (String → Except AppError String)} {projectId userId : Int}
    {form : Webhooks.WebhookForm} {endpoint : Endpoint}
    (h : Webhooks.checkWebhook env resolve encrypt projectId userId form = .ok endpoint) :
    endpoint.projectId = projectId ∧ endpoint.createdBy = userId := by
  obtain ⟨name, -, h⟩ := Except.bind_ok h
  obtain ⟨url, -, h⟩ := Except.bind_ok h
  dsimp only at h
  split at h
  · cases h
  split at h
  · cases h
  split at h
  · cases h
  obtain ⟨addresses, -, h⟩ := Except.bind_ok h
  split at h
  · obtain ⟨secret, -, h⟩ := Except.bind_ok h
    split at h
    · cases h
    split at h
    · cases h
    · obtain ⟨stored, -, h⟩ := Except.bind_ok h
      cases h
      exact ⟨rfl, rfl⟩
  · cases h
    exact ⟨rfl, rfl⟩

theorem verifyCurrent_ok {env : Crates} {db : Db} {session : Auth.Session} {argon2 : Except String String}
    {form : Settings.PasswordForm} {newHash : String}
    (h : UiForms.verifyCurrent env db session argon2 form = .ok newHash) :
    ∃ u, db.users.get? session.userId = some u ∧
      env.verifyPassword form.currentPassword u.passwordHash = true := by
  unfold UiForms.verifyCurrent at h
  split at h
  · cases h
  · next u hu =>
    split at h
    · cases h
    · next hverified => exact ⟨u, hu, by simpa using hverified⟩

theorem acts_of_role (hw : P w) {name : String} (hname : slug i = some name) {userId projectId : Int}
    {minimum : ProjectRole}
    (h : Auth.requireProjectRole w.db userId name minimum = .ok projectId) :
    Acts P i projectId userId minimum := ⟨name, hname, w, hw, Auth.requireProjectRole_ok h⟩

theorem grounded_ready {env : Crates} {r : Request} (h : Warranted env P i r) :
    Grounded env P i (.ready [r]) := by
  intro r' hr
  obtain rfl := List.mem_singleton.mp hr
  exact h

/-- What a form is going to write is warranted: one case for each route. -/
theorem checkForm_grounded (hw : P w) {cookie : Option String} {session : Auth.Session}
    (hsigned : SignedIn service.env P cookie session) {request : UiForms.Request} {stage : Stage}
    (h : checkForm service w.db session cookie request = .ok stage) :
    Grounded service.env P (.form cookie (.ok request)) stage := by
  have hmade : MadeBy service.env P session.userId (.form cookie (.ok request)) :=
    ⟨session.csrfToken, checkForm_csrf h, hsigned⟩
  cases request with
  | logout form =>
    obtain ⟨-, -, h⟩ := Except.bind_ok h
    cases h
    exact grounded_ready ⟨⟨_, rfl⟩, session.userId, hmade⟩
  | createProject form =>
    obtain ⟨-, -, h⟩ := Except.bind_ok h
    obtain ⟨-, -, h⟩ := Except.bind_ok h
    cases h
    exact grounded_ready hmade
  | createApiToken form random =>
    obtain ⟨-, -, h⟩ := Except.bind_ok h
    obtain ⟨name, -, h⟩ := Except.bind_ok h
    cases h
    exact grounded_ready hmade
  | createMember slug form argon2 =>
    obtain ⟨authorized, hauthorized, h⟩ := Except.bind_ok h
    cases h
    obtain ⟨hproject, hactor, -⟩ := Privileges.authorizeMember_ok hauthorized
    rw [← hactor] at hproject hmade
    exact ⟨hmade, acts_of_role hw rfl hproject⟩
  | createIngestKey slug form random | revokeIngestKey slug keyId form | resolveIssue slug issueId form
  | reopenIssue slug issueId form | deleteCommentForm slug issueId commentId form
  | deleteWebhook slug webhookId form =>
    obtain ⟨-, -, h⟩ := Except.bind_ok h
    obtain ⟨projectId, hproject, h⟩ := Except.bind_ok h
    cases h
    exact grounded_ready ⟨hmade, acts_of_role hw rfl hproject⟩
  | changeIssueStatus slug issueId form =>
    dsimp only [checkForm] at h
    split at h
    · cases h
    · obtain ⟨-, -, h⟩ := Except.bind_ok h
      obtain ⟨projectId, hproject, h⟩ := Except.bind_ok h
      cases h
      exact grounded_ready ⟨hmade, acts_of_role hw rfl hproject⟩
  | addComment slug issueId form | editCommentForm slug issueId commentId form =>
    obtain ⟨-, -, h⟩ := Except.bind_ok h
    obtain ⟨body, -, h⟩ := Except.bind_ok h
    obtain ⟨projectId, hproject, h⟩ := Except.bind_ok h
    cases h
    exact grounded_ready ⟨hmade, acts_of_role hw rfl hproject⟩
  | updateIssueTagsForm slug issueId form =>
    obtain ⟨-, -, h⟩ := Except.bind_ok h
    obtain ⟨projectId, hproject, h⟩ := Except.bind_ok h
    obtain ⟨tags, -, h⟩ := Except.bind_ok h
    cases h
    exact grounded_ready ⟨hmade, acts_of_role hw rfl hproject⟩
  | updateProfile userId form =>
    obtain ⟨-, -, h⟩ := Except.bind_ok h
    obtain ⟨targetId, htarget, h⟩ := Except.bind_ok h
    obtain ⟨displayName, -, h⟩ := Except.bind_ok h
    cases h
    exact grounded_ready ⟨hmade, w, hw, editor_ok htarget⟩
  | uploadAvatar userId body =>
    obtain ⟨form, -, h⟩ := Except.bind_ok h
    obtain ⟨-, -, h⟩ := Except.bind_ok h
    obtain ⟨targetId, htarget, h⟩ := Except.bind_ok h
    obtain ⟨png, -, h⟩ := Except.bind_ok h
    cases h
    exact grounded_ready ⟨hmade, w, hw, editor_ok htarget⟩
  | deleteAvatar userId form =>
    obtain ⟨-, -, h⟩ := Except.bind_ok h
    obtain ⟨targetId, htarget, h⟩ := Except.bind_ok h
    cases h
    exact grounded_ready ⟨hmade, w, hw, editor_ok htarget⟩
  | changePassword userId form argon2 =>
    obtain ⟨_, hchange, h⟩ := Except.bind_ok h
    obtain ⟨newHash, hverified, h⟩ := Except.bind_ok h
    cases h
    obtain ⟨-, -, hself⟩ := Except.bind_ok hchange
    split at hself
    · cases hself
    · next heq =>
      obtain rfl := not_not.mp heq
      exact grounded_ready ⟨hmade, cookie, form, argon2, rfl, w, hw, verifyCurrent_ok hverified⟩
  | revokeOtherSessions userId form | revokeSession userId sessionId form =>
    obtain ⟨-, -, h⟩ := Except.bind_ok h
    dsimp only at h
    split at h
    · cases h
    · cases h
      exact grounded_ready hmade
  | createWebhook slug form =>
    obtain ⟨-, -, h⟩ := Except.bind_ok h
    obtain ⟨projectId, hproject, h⟩ := Except.bind_ok h
    obtain ⟨endpoint, hendpoint, h⟩ := Except.bind_ok h
    cases h
    obtain ⟨rfl, hcreator⟩ := checkWebhook_owner hendpoint
    rw [← hcreator] at hmade hproject
    exact grounded_ready ⟨hmade, acts_of_role hw rfl hproject⟩
  | revokeApiToken tokenId form =>
    obtain ⟨-, -, h⟩ := Except.bind_ok h
    cases h
    exact grounded_ready hmade

theorem checkCall_grounded {env : Crates} (hw : P w) {headers : Http.Headers} {call : Call} {userId : Int}
    (hmade : MadeBy env P userId (.api headers call)) {stage : Stage}
    (h : checkCall w.db userId call = .ok stage) : Grounded env P (.api headers call) stage := by
  cases call with
  | read =>
    cases h
    exact fun _ hr => (List.not_mem_nil hr).elim
  | updateIssueTags slug issueId payload =>
    obtain ⟨projectId, hproject, h⟩ := Except.bind_ok h
    obtain ⟨tags, -, h⟩ := Except.bind_ok h
    cases h
    exact grounded_ready ⟨hmade, acts_of_role hw rfl hproject⟩
  | createComment slug issueId body | updateComment slug issueId commentId body =>
    obtain ⟨body, -, h⟩ := Except.bind_ok h
    obtain ⟨projectId, hproject, h⟩ := Except.bind_ok h
    cases h
    exact grounded_ready ⟨hmade, acts_of_role hw rfl hproject⟩
  | deleteComment slug issueId commentId =>
    obtain ⟨projectId, hproject, h⟩ := Except.bind_ok h
    cases h
    exact grounded_ready ⟨hmade, acts_of_role hw rfl hproject⟩

end Checks

section Arrivals

variable {service : UiForms.Service} {publicUrl : Option String} {P : World → Prop} {w : World}

theorem requireSession_ok {env : Crates} {cookie : Option String} {session : Auth.Session}
    (hw : P w) (h : Settings.requireSession env w.db cookie w.clock = .ok session) :
    SignedIn env P cookie session := by
  unfold Settings.requireSession at h
  split at h
  · next found hfound =>
    cases h
    obtain ⟨token, htoken, hfound⟩ := Option.bind_eq_some_iff.mp hfound
    dsimp only at hfound
    split at hfound
    · next id s hrow =>
      cases hfound
      obtain ⟨hget, hlive⟩ := Table.find?_some _ hrow
      simp only [Bool.and_eq_true, decide_eq_true_eq] at hlive
      exact ⟨w, hw, id, s, token, htoken, hget, hlive.1.1, hlive.1.2, rfl, rfl⟩
    · cases hfound
  · cases h

theorem apiTokenUser_live {env : Crates} {db db' : Db} {now userId : Int} {bearer : String}
    (h : Settings.apiTokenUser env bearer now db = .ok (db', userId)) :
    ∃ id, Keyring.Live Credentials.tokenColumns id userId (Auth.tokenHash env bearer) db.apiTokens := by
  simp only [Settings.apiTokenUser] at h
  split at h
  · cases h
  · split at h
    · cases h
    · next id t hfind =>
      cases h
      obtain ⟨hget, hlive⟩ := Table.find?_some _ hfind
      obtain ⟨hhash, hrevoked⟩ := of_decide_eq_true hlive
      exact ⟨id, t, hget, rfl, hhash, hrevoked⟩

theorem start_unlocked {env : Crates} {cookieToken token csrf : String} {form : Login.LoginForm}
    {sessionDays : Int} {a : Login.Attempt} (hw : P w)
    (h : Login.start env w.db w.clock cookieToken form = .ok a) :
    cookieToken = form.csrfToken ∧ a = ⟨form, .checked⟩ ∧
      Unlocked env P (.login form.csrfToken form token csrf sessionDays) form.email := by
  obtain ⟨ha, hlocked⟩ := Login.start_ok h
  unfold Login.start at h
  split at h
  · cases h
  · next hcsrf =>
    obtain ⟨hsame, hcookie⟩ := not_or.mp hcsrf
    obtain rfl : cookieToken = form.csrfToken := by simpa [Auth.secureEq] using hsame
    exact ⟨rfl, ha, form, token, csrf, sessionDays, rfl, hcookie, rfl, w, hw, hlocked⟩

theorem bootstrap_created {db db' : Db} {argon2 : Except String String} {form : Projects.BootstrapForm}
    {userId : Int} (h : Projects.bootstrap argon2 form db = .ok (db', userId)) :
    db.users.rows = [] ∧ userId = db.users.nextId ∧ ∃ u, db' = { db with users := db.users.insert u } := by
  obtain ⟨-, -, h⟩ := Except.bind_ok h
  obtain ⟨passwordHash, -, h⟩ := Except.bind_ok h
  exact Bootstrap.bootstrapTx_ok h

/-- A user that was found once was there. -/
theorem once_found {userId : Int} {φ : World → User → Prop}
    (h : Once P fun w => ∃ u, w.db.users.get? userId = some u ∧ φ w u) :
    Once P fun w => Has w.db.users userId := by
  refine Once.imp h fun w _ => ?_
  rintro ⟨u, hu, -⟩
  exact Reference.has_of_get? hu

/-- A login goes on with what it has looked up. -/
theorem tryLogin_grounded (hw : P w) {i : Incoming} {a : Login.Attempt} {token csrf : String}
    {sessionDays : Int} (h : Grounded service.env P i (.attempt a token csrf sessionDays)) :
    Grounded service.env P i (tryLogin service w.db a token csrf sessionDays) := by
  obtain ⟨form, stage⟩ := a
  obtain ⟨rfl, hunlocked, hlooked⟩ := h
  cases stage with
  | checked =>
    refine ⟨rfl, hunlocked, ?_⟩
    dsimp only
    rcases Login.findUser_cases w.db form.email with ⟨userId, u, hu, hemail, hfound⟩ | hunknown
    · rw [hfound]
      exact ⟨w, hw, u, hu, hemail, rfl⟩
    · rw [hunknown]
      trivial
  | found userId hash =>
    refine ⟨rfl, hunlocked, ?_⟩
    dsimp only [Login.verify]
    split
    · next hverified =>
      refine Once.imp hlooked fun v _ => ?_
      rintro ⟨u, hu, hemail, rfl⟩
      exact ⟨u, hu, hemail, hverified⟩
    · exact once_found hlooked
  | unknown =>
    refine List.forall_mem_cons.mpr ⟨hunlocked, List.forall_mem_singleton.mpr ⟨⟨_, hunlocked⟩, ?_⟩⟩
    intro _ hid
    cases hid
  | rejected userId =>
    refine List.forall_mem_cons.mpr ⟨hunlocked, List.forall_mem_singleton.mpr ⟨⟨_, hunlocked⟩, ?_⟩⟩
    rintro _ ⟨⟩
    exact hlooked
  | accepted userId =>
    refine List.forall_mem_cons.mpr ⟨hunlocked, List.forall_mem_cons.mpr ⟨.inl ?_,
      List.forall_mem_singleton.mpr ⟨⟨_, hunlocked⟩, ?_⟩⟩⟩
    · exact ⟨form, token, csrf, sessionDays, rfl, hunlocked, hlooked⟩
    · rintro _ ⟨⟩
      exact once_found hlooked

theorem goOn_next {x : Except AppError Stage} {stage : Stage} (h : (goOn x).next = some stage) :
    x = .ok stage := by
  cases x with
  | error e => cases h
  | ok stage' => exact congrArg Except.ok (Option.some.inj h)

theorem next_of_rest {m : Move} {now : Int} {db : Db} {stage : Stage}
    (h : m.rest service publicUrl now db = some stage) : m.next = some stage := by
  unfold Move.rest at h
  split at h
  · split at h
    · exact h
    · cases h
  · exact h

/-- The step of a request that has just arrived. -/
theorem receive_grounded (hw : P w) {w' : World} (hw' : P w') (incoming : Incoming)
    (hdb : w'.db = (receive service w.clock w.db incoming).store service publicUrl w.clock w.db)
    {next : Stage} (h : (receive service w.clock w.db incoming).next = some next) :
    Grounded service.env P incoming next := by
  cases incoming with
  | form cookie input =>
    obtain ⟨session, hsession, h⟩ := Except.bind_ok (goOn_next h)
    obtain ⟨request, rfl, h⟩ := Except.bind_ok h
    cases h
    exact ⟨rfl, requireSession_ok hw hsession⟩
  | api headers call =>
    dsimp only [receive] at h
    split at h
    · cases h
    · next credential hbearer =>
      split at h
      · cases h
      · next db' userId huser =>
        cases h
        exact ⟨⟨headers, rfl⟩, credential, hbearer, w, hw, apiTokenUser_live huser⟩
  | event request storageId =>
    obtain ⟨req, hreq, h⟩ := Except.bind_ok (goOn_next h)
    obtain ⟨body, hbody, h⟩ := Except.bind_ok h
    cases h
    obtain ⟨credential, hbearer, hreq⟩ := Except.bind_ok hreq
    obtain ⟨⟨keyId, projectId⟩, hkey, hreq⟩ := Except.bind_ok hreq
    cases hreq
    unfold Http.eventBody at hbody
    split at hbody
    · cases hbody
    · split at hbody
      · cases hbody
      · next hlimit =>
        cases hbody
        exact grounded_ready ⟨request, credential, rfl, rfl, Nat.le_of_not_lt hlimit, hbearer, w, hw,
          Auth.ingestKeyProject_names hkey, Credentials.ingestKeyProject_key hkey⟩
  | login cookieToken form token csrf sessionDays =>
    obtain ⟨a, ha, h⟩ := Except.bind_ok (goOn_next h)
    cases h
    obtain ⟨rfl, rfl, hunlocked⟩ := start_unlocked hw ha
    exact ⟨rfl, hunlocked, trivial⟩
  | bootstrap argon2 form token csrf sessionDays =>
    dsimp only [receive] at h hdb
    split at h
    · cases h
    · next db' userId hbootstrap =>
      cases h
      obtain ⟨hfirst, hid, u, hdb'⟩ := bootstrap_created hbootstrap
      rw [hbootstrap] at hdb
      have hthere : Has w'.db.users userId := by
        simp only [Move.store, execRequest, silent, commit, hbootstrap] at hdb
        rw [hdb, hdb', hid]
        exact Reference.has_new _ _
      exact grounded_ready (.inr ⟨argon2, form, token, csrf, sessionDays, rfl, ⟨w, hw, hfirst⟩, w', hw', hthere⟩)

/-- One step of a request keeps the grounds that it has. -/
theorem advance_grounded (hw : P w) {w' : World} (hw' : P w') {i : Incoming} {stage next : Stage}
    (hdb : w'.db = (advance service w.clock w.db stage).store service publicUrl w.clock w.db)
    (h : Grounded service.env P i stage) (hnext : (advance service w.clock w.db stage).next = some next) :
    Grounded service.env P i next := by
  cases stage with
  | arrived incoming =>
    obtain rfl : i = incoming := h
    exact receive_grounded hw hw' i hdb hnext
  | signedIn cookie session request =>
    obtain ⟨rfl, hsigned⟩ := h
    exact checkForm_grounded hw hsigned (goOn_next hnext)
  | member authorized argon2 =>
    obtain ⟨checked, hchecked, hready⟩ := Except.bind_ok (goOn_next hnext)
    cases hready
    obtain ⟨actor, hactor, howner, rfl⟩ := Privileges.readActor_ok hchecked
    exact grounded_ready ⟨h.1, h.2, fun hrole => ⟨w, hw, hactor.trans (congrArg some (howner hrole))⟩⟩
  | principal userId call =>
    obtain ⟨⟨headers, rfl⟩, hmade⟩ := h
    exact checkCall_grounded hw hmade (goOn_next hnext)
  | attempt a token csrf sessionDays =>
    obtain rfl := Option.some.inj hnext
    exact tryLogin_grounded hw h
  | ready writes =>
    cases writes with
    | nil => cases hnext
    | cons r writes =>
      cases hnext
      exact fun r' hr => h r' (List.mem_cons_of_mem r hr)

/-- Whatever a step writes is warranted. -/
theorem advance_warranted (hw : P w) {i : Incoming} {stage : Stage} {r : Request}
    (h : Grounded service.env P i stage)
    (hwrite : (advance service w.clock w.db stage).write = some r) : Warranted service.env P i r := by
  cases stage with
  | arrived incoming =>
    obtain rfl : i = incoming := h
    cases i with
    | form | event | login => cases hwrite
    | api headers call =>
      dsimp only [advance, receive] at hwrite
      split at hwrite
      · cases hwrite
      · next credential hbearer =>
        split at hwrite
        · cases hwrite
        · next db' userId huser =>
          cases hwrite
          exact ⟨userId, credential, hbearer, w, hw, apiTokenUser_live huser⟩
    | bootstrap argon2 form token csrf sessionDays =>
      dsimp only [advance, receive] at hwrite
      split at hwrite
      · cases hwrite
      · next db' userId hbootstrap =>
        cases hwrite
        exact ⟨⟨token, csrf, sessionDays, rfl⟩, w, hw, (bootstrap_created hbootstrap).1⟩
  | signedIn | member | principal | attempt => cases hwrite
  | ready writes =>
    cases writes with
    | nil => cases hwrite
    | cons r' writes =>
      cases hwrite
      exact h _ (List.mem_cons_self ..)

end Arrivals

section Runs

variable {service : UiForms.Service} {publicUrl : Option String}

/-- Every request under way has come to its stage by what was the case since it
arrived. -/
def Inv (env : Crates) (P : World → Prop) (w : World) : Prop :=
  ∀ p ∈ w.pending, p.since < w.moment ∧
    Grounded env (fun v => P v ∧ p.since < v.moment) p.incoming p.stage

theorem Inv.mono {env : Crates} {P Q : World → Prop} {w : World} (hsub : ∀ v, P v → Q v)
    (h : Inv env P w) : Inv env Q w :=
  fun p hp => ⟨(h p hp).1, (h p hp).2.mono fun v hv => ⟨hsub v hv.1, hv.2⟩⟩

/-- A step that leaves a request as it is. -/
theorem Inv.waits {env : Crates} {P : World → Prop} {w : World} (h : Inv env P w) {p : Pending}
    (hp : p ∈ w.pending) : p.since < w.moment + 1 ∧
      Grounded env (fun v => P v ∧ p.since < v.moment) p.incoming p.stage :=
  ⟨Nat.lt_succ_of_lt (h p hp).1, (h p hp).2⟩

theorem inv_advanced {P : World → Prop} {w : World} {index : Nat} {p : Pending} (hw : P w)
    (hw' : P (w.advanced service publicUrl index p)) (h : Inv service.env P w)
    (hp : w.pending[index]? = some p) :
    Inv service.env P (w.advanced service publicUrl index p) := by
  have hmem := List.mem_of_getElem? hp
  intro q hq
  cases hrest : (advance service w.clock w.db p.stage).rest service publicUrl w.clock w.db with
  | none =>
    simp only [World.advanced, hrest] at hq
    exact h.waits (List.mem_of_mem_eraseIdx hq)
  | some stage =>
    have hnext := next_of_rest hrest
    simp only [World.advanced, hrest] at hq
    rcases List.mem_or_eq_of_mem_set hq with hq | rfl
    · exact h.waits hq
    · refine ⟨(h.waits hmem).1, ?_⟩
      exact advance_grounded ⟨hw, (h p hmem).1⟩ ⟨hw', (h.waits hmem).1⟩ rfl (h p hmem).2 hnext

theorem inv_step {P : World → Prop} {w w' : World} {label : Label} (hw : P w) (hw' : P w')
    (h : Inv service.env P w) (hstep : step service publicUrl w label = some w') :
    Inv service.env P w' := by
  cases label with
  | tick seconds =>
    cases hstep
    exact fun p hp => h.waits hp
  | arrive incoming =>
    cases hstep
    intro p hp
    rcases List.mem_append.mp hp with hp | hp
    · exact h.waits hp
    · obtain rfl := List.mem_singleton.mp hp
      exact ⟨Nat.lt_succ_self _, rfl⟩
  | advance index =>
    obtain ⟨p, hp, rfl⟩ := Option.map_eq_some_iff.mp hstep
    exact inv_advanced hw hw' h hp
  | drop index =>
    cases hstep
    exact fun p hp => h.waits (List.mem_of_mem_eraseIdx hp)
  | worker write =>
    cases hstep
    exact fun p hp => h.waits hp

theorem run_inv {db : Db} {clock : Int} {moment : Nat} {labels : List Label} {w : World}
    (hrun : Runs.run (step service publicUrl) labels ⟨db, clock, moment, []⟩ = some w) :
    Inv service.env (History.Visited (step service publicUrl) labels ⟨db, clock, moment, []⟩) w := by
  refine History.run_since (fun p hp => (List.not_mem_nil hp).elim)
    (fun _ _ _ hsub h => Inv.mono hsub h) (fun _ u a v hu hv h hstep => ?_) hrun
  exact inv_step hu hv h hstep

/-- In every run, whatever a request writes is warranted by states of the run
since the request arrived. -/
theorem writes_warranted {db : Db} {clock : Int} {moment : Nat} {labels : List Label} {w : World}
    (hrun : Runs.run (step service publicUrl) labels ⟨db, clock, moment, []⟩ = some w) {index : Nat}
    {p : Pending} (hp : w.pending[index]? = some p) {r : Request}
    (hwrite : (advance service w.clock w.db p.stage).write = some r) :
    Warranted service.env (fun v => History.Visited (step service publicUrl) labels
      ⟨db, clock, moment, []⟩ v ∧ p.since < v.moment) p.incoming r := by
  obtain ⟨hsince, hgrounded⟩ := run_inv hrun p (List.mem_of_getElem? hp)
  exact advance_warranted ⟨History.visited_last hrun, hsince⟩ hgrounded hwrite

def Sample.form : Projects.ProjectForm := ⟨"csrf", "Demo", none, none⟩

/-- The first user signs up and is going to create a project. -/
def Sample.labels : List Label :=
  [.arrive (.bootstrap (.ok "hash") ⟨"ada@example.org", "Ada", "correct horse battery"⟩ "token" "csrf" 7),
    .advance 0, .advance 0, .advance 0,
    .arrive (.form (some "token") (.ok (.createProject Sample.form))),
    .advance 0, .advance 0]

def Sample.reached : World :=
  (Runs.run (step CsrfGate.Sample.service none) Sample.labels (.start 0)).get (by rfl)

theorem run_sample : Runs.run (step CsrfGate.Sample.service none) Sample.labels (.start 0) =
    some Sample.reached := (Option.some_get _).symm

theorem writes_warranted_project : Warranted Zbierak.Sample.crates
    (fun v => History.Visited (step CsrfGate.Sample.service none) Sample.labels (.start 0) v ∧
      4 < v.moment)
    (.form (some "token") (.ok (.createProject Sample.form))) (.createProject ⟨1, "csrf"⟩ Sample.form) :=
  @writes_warranted CsrfGate.Sample.service none .empty 0 0 Sample.labels Sample.reached run_sample 0
    ⟨.form (some "token") (.ok (.createProject Sample.form)), 4,
      .ready [.createProject ⟨1, "csrf"⟩ Sample.form]⟩ rfl (.createProject ⟨1, "csrf"⟩ Sample.form) rfl

end Runs

section ForeignKeys

open References

variable {env : Crates} {P : World → Prop} {db : Db} {i : Incoming}

theorem MadeBy.has (hlasts : ∀ w, P w → Lasts w.db db) (hintact : ∀ w, P w → ∀ t, Intact w.db t)
    {userId : Int} (h : MadeBy env P userId i) : Has db.users userId := by
  cases i with
  | form cookie input =>
    cases input with
    | error e => exact h.elim
    | ok request =>
      obtain ⟨csrf, -, w, hw, id, s, token, -, hget, -, -, huser, -⟩ := h
      have huser : s.userId = userId := huser
      have huser' := hintact w hw .sessions (id, s) (Table.get?_eq_some _ |>.mp hget) s.userId rfl
      exact (hlasts w hw).users userId (huser ▸ huser')
  | api headers call =>
    obtain ⟨credential, -, w, hw, id, t, hget, huser, -⟩ := h
    have huser' := hintact w hw .apiTokens (id, t) (Table.get?_eq_some _ |>.mp hget) t.userId rfl
    exact (hlasts w hw).users userId (huser ▸ huser')
  | event | login | bootstrap => exact h.elim

theorem Acts.has (hlasts : ∀ w, P w → Lasts w.db db) {projectId userId : Int} {minimum : ProjectRole}
    (h : Acts P i projectId userId minimum) : Has db.projects projectId := by
  obtain ⟨name, -, w, hw, ⟨p, hp, -⟩, -⟩ := h
  exact (hlasts w hw).projects projectId (Reference.has_of_get? hp)

theorem once_has (hlasts : ∀ w, P w → Lasts w.db db) {userId : Int}
    (h : Once P fun w => Has w.db.users userId) : Has db.users userId := by
  obtain ⟨w, hw, hthere⟩ := h
  exact (hlasts w hw).users userId hthere

/-- An operation that names the users and projects of two lists. -/
theorem named_of {op : Op} (husers : List.Forall (Has db.users) (namedUsers op))
    (hprojects : List.Forall (Has db.projects) (namedProjects op)) : Named db op :=
  ⟨List.forall_iff_forall_mem.mp husers, List.forall_iff_forall_mem.mp hprojects⟩

/-- What is warranted names users and projects that are there. -/
theorem Warranted.named (hlasts : ∀ w, P w → Lasts w.db db)
    (hintact : ∀ w, P w → ∀ t, Intact w.db t) {r : Request} (h : Warranted env P i r) :
    Named db (.request r) := by
  have hmade : ∀ userId, MadeBy env P userId i → Has db.users userId :=
    fun _ => MadeBy.has hlasts hintact
  cases r with
  | ingest | bootstrap | loginFailure | loginSuccess => exact named_of trivial trivial
  | setIssueStatus | replaceIssueTags | insertComment | updateComment | deleteComment
  | revokeIngestKey | deleteWebhook => exact named_of (hmade _ h.1) trivial
  | createIngestKey | createWebhook => exact named_of (hmade _ h.1) (h.2.has hlasts)
  | writeMember request argon2 => exact named_of trivial (h.2.1.has hlasts)
  | createProject session form => exact named_of (hmade _ h) trivial
  | createSession userId token csrf sessionDays =>
    refine named_of ?_ trivial
    rcases h with ⟨form, _, _, _, -, -, hknows⟩ | ⟨_, _, _, _, _, -, -, hthere⟩
    · exact once_has hlasts (once_found hknows)
    · exact once_has hlasts hthere
  | recordLogin row =>
    refine ⟨fun id hid => once_has hlasts (h.2 id (Option.mem_toList.mp hid)), fun id hid => ?_⟩
    exact (List.not_mem_nil hid).elim
  | account request =>
    cases request with
    | logout | useApiToken => exact named_of trivial trivial
    | createApiToken | revokeApiToken | revokeOtherSessions | revokeSession =>
      exact named_of (hmade _ h) trivial
    | changePassword | updateProfile | deleteAvatar => exact named_of (hmade _ h.1) trivial
    | uploadAvatar userId targetId png =>
      refine named_of ⟨hmade _ h.1, once_has hlasts (h.2.imp fun _ _ => And.left)⟩ trivial

variable {service : UiForms.Service} {publicUrl : Option String}

theorem step_lasts {w w' : World} {label : Label} (h : step service publicUrl w label = some w') :
    Lasts w.db w'.db := by
  rcases step_operation h with hsame | ⟨op, hop⟩
  · rw [hsame]
    exact .refl _
  · rw [hop]
    exact exec_lasts ⟨service.env, publicUrl⟩ w.clock w.db op

theorem visited_lasts {labels : List Label} {s v w : World}
    (hv : History.Visited (step service publicUrl) labels s v)
    (hrun : Runs.run (step service publicUrl) labels s = some w) : Lasts v.db w.db := by
  obtain ⟨seen, ⟨rest, rfl⟩, hseen⟩ := hv
  obtain ⟨v', hv', hrest⟩ := Runs.run_append_some.mp hrun
  obtain rfl : v = v' := Option.some.inj (hseen.symm.trans hv')
  exact Runs.run_relation_of (R := fun a b => Lasts a.db b.db) (fun _ => .refl _)
    (fun _ _ _ => Lasts.trans) (fun _ _ _ _ _ => trivial) (fun _ _ _ _ => step_lasts) hrest trivial

theorem step_intact {clock : Int} {labels : List Label} {w w' : World} {label : Label}
    (hrun : Runs.run (step service publicUrl) labels (.start clock) = some w)
    (hintact : ∀ v, History.Visited (step service publicUrl) labels (.start clock) v →
      ∀ t, Intact v.db t)
    (hstep : step service publicUrl w label = some w') (t : TableName) : Intact w'.db t := by
  have hhere := hintact w (History.visited_last hrun)
  cases label with
  | tick | arrive | drop =>
    cases hstep
    exact hhere t
  | advance index =>
    obtain ⟨p, hp, rfl⟩ := Option.map_eq_some_iff.mp hstep
    obtain ⟨hsince, hgrounded⟩ := run_inv hrun p (List.mem_of_getElem? hp)
    dsimp only [World.advanced, Move.store]
    split
    · next r hwrite =>
      have hwarranted := advance_warranted ⟨History.visited_last hrun, hsince⟩ hgrounded hwrite
      have hnamed := hwarranted.named (fun v hv => visited_lasts hv.1 hrun) fun v hv => hintact v hv.1
      exact exec_intact ⟨service.env, publicUrl⟩ w.clock hhere hnamed t
    · exact hhere t
  | worker write =>
    cases hstep
    have hnamed : Named w.db (.worker write) := named_of trivial trivial
    exact exec_intact ⟨service.env, publicUrl⟩ w.clock hhere hnamed t

/-- With every request under way, of any kind and in any order, no foreign key of
the schema is ever violated. -/
theorem foreign_keys_kept {clock : Int} {labels : List Label} {w : World}
    (hrun : Runs.run (step service publicUrl) labels (.start clock) = some w) (t : TableName) :
    Intact w.db t := by
  suffices hvisited : ∀ v, History.Visited (step service publicUrl) labels (.start clock) v →
      ∀ t, Intact v.db t from hvisited w (History.visited_last hrun) t
  clear hrun
  induction labels using List.reverseRecOn with
  | nil =>
    rintro v ⟨seen, hseen, hv⟩
    obtain rfl := List.prefix_nil.mp hseen
    obtain rfl : World.start clock = v := by simpa using hv
    exact intact_empty
  | append_singleton labels label ih =>
    rintro v ⟨seen, hseen, hv⟩
    rcases List.prefix_concat_iff.mp hseen with rfl | hseen
    · obtain ⟨u, hu, hlast⟩ := Runs.run_append_some.mp hv
      rw [Runs.run_singleton] at hlast
      exact step_intact hu ih hlast
    · exact ih v ⟨seen, hseen, hv⟩

theorem foreign_keys_kept_sample : Intact Sample.reached.db .sessions := foreign_keys_kept run_sample .sessions

end ForeignKeys

end Zbierak.Mediation
