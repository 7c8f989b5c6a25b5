import Zbierak.Http
import Zbierak.Login
import Zbierak.Server
import Zbierak.UiForms

/-!
# Requests under way

A request of a browser, an API client or an SDK waits for the store between what
it reads and what it writes, and other requests run meanwhile. How far it has come
is a `Stage`; left alone it leaves the store that its handler leaves.
-/
namespace Zbierak.Requests

open Server (Request execRequest execWorker)

/-- The routes behind an API token. All of them mark the token as used. -/
inductive Call where
  | read
  | updateIssueTags (slug : String) (issueId : Int) (payload : List String)
  | createComment (slug : String) (issueId : Int) (body : String)
  | updateComment (slug : String) (issueId commentId : Int) (body : String)
  | deleteComment (slug : String) (issueId commentId : Int)

/-- A request as it arrives, with the random choices that it makes. -/
inductive Incoming where
  | form (cookie : Option String) (input : Except AppError UiForms.Request)
  | api (headers : Http.Headers) (call : Call)
  | event (request : Http.Request) (storageId : String)
  | login (cookieToken : String) (form : Login.LoginForm) (token csrf : String) (sessionDays : Int)
  | bootstrap (argon2 : Except String String) (form : Projects.BootstrapForm) (token csrf : String)
      (sessionDays : Int)

/-- How far a request has come: what it knows, or what it is going to write. -/
inductive Stage where
  | arrived (incoming : Incoming)
  | signedIn (cookie : Option String) (session : Auth.Session) (request : UiForms.Request)
  | member (authorized : Projects.AuthorizedMember) (argon2 : Except String String)
  | principal (userId : Int) (call : Call)
  | attempt (a : Login.Attempt) (token csrf : String) (sessionDays : Int)
  | ready (writes : List Request)

section Checks

variable (service : UiForms.Service) (db : Db) (session : Auth.Session) (cookie : Option String)

/-- The checks of a form before it writes. -/
def checkForm : UiForms.Request → Except AppError Stage
  | .logout form => do
    Auth.checkCsrf session form.csrfToken
    return .ready [.account (.logout cookie)]
  | .createProject form => do
    Auth.checkCsrf session form.csrfToken
    let _ ← Projects.checkProject form
    return .ready [.createProject session form]
  | .createMember slug form argon2 => do
    let authorized ← Projects.authorizeMember session slug form db
    return .member authorized argon2
  | .createIngestKey slug form random => do
    Auth.checkCsrf session form.csrfToken
    let projectId ← Auth.requireProjectRole db session.userId slug .admin
    return .ready [.createIngestKey projectId session.userId form.name s!"zbk_{random}"]
  | .revokeIngestKey slug keyId form => do
    Auth.checkCsrf session form.csrfToken
    let projectId ← Auth.requireProjectRole db session.userId slug .admin
    return .ready [.revokeIngestKey projectId session.userId keyId slug]
  | .changeIssueStatus slug issueId form =>
    match IssueStatus.parse form.status with
    | none => .error (.badRequest "invalid issue status")
    | some status => checkStatus slug issueId form.csrfToken status
  | .resolveIssue slug issueId form => checkStatus slug issueId form.csrfToken .resolved
  | .reopenIssue slug issueId form => checkStatus slug issueId form.csrfToken .unresolved
  | .addComment slug issueId form => do
    Auth.checkCsrf session form.csrfToken
    let body ← Forms.requiredText "comment" form.body 10000
    let projectId ← Auth.requireProjectRole db session.userId slug .developer
    return .ready [.insertComment projectId session.userId issueId body]
  | .editCommentForm slug issueId commentId form => do
    Auth.checkCsrf session form.csrfToken
    let body ← Forms.requiredText "comment" form.body 10000
    let projectId ← Auth.requireProjectRole db session.userId slug .developer
    return .ready [.updateComment projectId session.userId issueId commentId body]
  | .deleteCommentForm slug issueId commentId form => do
    Auth.checkCsrf session form.csrfToken
    let projectId ← Auth.requireProjectRole db session.userId slug .developer
    return .ready [.deleteComment projectId session.userId issueId commentId]
  | .updateIssueTagsForm slug issueId form => do
    Auth.checkCsrf session form.csrfToken
    let projectId ← Auth.requireProjectRole db session.userId slug .developer
    let tags ← (Tags.normalizeCommaSeparated form.tags).mapError .badRequest
    return .ready [.replaceIssueTags projectId issueId session.userId tags]
  | .updateProfile userId form => do
    Auth.checkCsrf session form.csrfToken
    let targetId ← UiForms.requireProfileEditor db session userId
    let displayName ← Forms.requiredText "display name" form.displayName 100
    return .ready [.account (.updateProfile session.userId targetId displayName)]
  | .uploadAvatar userId body => do
    let form ← UiForms.uiMultipart body
    Auth.checkCsrf session form.csrfToken
    let targetId ← UiForms.requireProfileEditor db session userId
    let png ← service.normalizeUpload form.bytes
    return .ready [.account (.uploadAvatar session.userId targetId png)]
  | .deleteAvatar userId form => do
    Auth.checkCsrf session form.csrfToken
    let targetId ← UiForms.requireProfileEditor db session userId
    return .ready [.account (.deleteAvatar session.userId targetId)]
  | .changePassword userId form argon2 => do
    UiForms.checkChange session userId form
    let newHash ← UiForms.verifyCurrent service.env db session argon2 form
    return .ready [.account (.changePassword session.userId (UiForms.sessionEmail db session) newHash
      (Settings.currentHash service.env cookie))]
  | .revokeOtherSessions userId form => do
    Auth.checkCsrf session form.csrfToken
    if userId ≠ session.userId then .error .forbidden
    return .ready [.account (.revokeOtherSessions session.userId
      (Settings.currentHash service.env cookie))]
  | .revokeSession userId sessionId form => do
    Auth.checkCsrf session form.csrfToken
    if userId ≠ session.userId then .error .forbidden
    return .ready [.account (.revokeSession session.userId sessionId)]
  | .createWebhook slug form => do
    Auth.checkCsrf session form.csrfToken
    let projectId ← Auth.requireProjectRole db session.userId slug .admin
    let endpoint ← Webhooks.checkWebhook service.env service.resolve service.encrypt projectId
      session.userId form
    return .ready [.createWebhook slug endpoint]
  | .deleteWebhook slug webhookId form => do
    Auth.checkCsrf session form.csrfToken
    let projectId ← Auth.requireProjectRole db session.userId slug .admin
    return .ready [.deleteWebhook projectId session.userId webhookId slug]
  | .createApiToken form random => do
    Auth.checkCsrf session form.csrfToken
    let name ← Forms.requiredText "name" form.name 100
    return .ready [.account (.createApiToken session.userId name (Settings.apiTokenPrefix ++ random))]
  | .revokeApiToken tokenId form => do
    Auth.checkCsrf session form.csrfToken
    return .ready [.account (.revokeApiToken session.userId tokenId)]
where
  checkStatus (slug : String) (issueId : Int) (csrfToken : String) (status : IssueStatus) :
      Except AppError Stage := do
    Auth.checkCsrf session csrfToken
    let projectId ← Auth.requireProjectRole db session.userId slug .developer
    return .ready [.setIssueStatus projectId issueId session.userId status]

/-- The same behind an API token. -/
def checkCall (userId : Int) : Call → Except AppError Stage
  | .read => return .ready []
  | .updateIssueTags slug issueId payload => do
    let projectId ← Auth.requireProjectRole db userId slug .developer
    let tags ← (Tags.normalizeTags payload).mapError fun error => .unprocessable (some "tags") error
    return .ready [.replaceIssueTags projectId issueId userId tags]
  | .createComment slug issueId body => do
    let body ← IssueApi.validateCommentBody body
    let projectId ← Auth.requireProjectRole db userId slug .developer
    return .ready [.insertComment projectId userId issueId body]
  | .updateComment slug issueId commentId body => do
    let body ← IssueApi.validateCommentBody body
    let projectId ← Auth.requireProjectRole db userId slug .developer
    return .ready [.updateComment projectId userId issueId commentId body]
  | .deleteComment slug issueId commentId => do
    let projectId ← Auth.requireProjectRole db userId slug .developer
    return .ready [.deleteComment projectId userId issueId commentId]

end Checks

/-- One step of a request: perhaps it writes, perhaps it goes on. -/
structure Move where
  write : Option Request
  next : Option Stage

/-- A request that is refused is over. -/
def goOn (x : Except AppError Stage) : Move := ⟨none, x.toOption⟩

section Advance

variable (service : UiForms.Service) (publicUrl : Option String) (now : Int) (db : Db)

/-- Who is asking. -/
def receive : Incoming → Move
  | .form cookie input => goOn do
    let session ← Settings.requireSession service.env db cookie now
    let request ← input
    return .signedIn cookie session request
  | .api headers call =>
    match Http.bearer service.env headers with
    | .error _ => ⟨none, none⟩
    | .ok credential =>
      match Settings.apiTokenUser service.env credential now db with
      | .error _ => ⟨none, none⟩
      | .ok (_, userId) => ⟨some (.account (.useApiToken credential)), some (.principal userId call)⟩
  | .event request storageId => goOn do
    let req ← Http.ingestProject service.env db request.headers request.slug
    let body ← Http.eventBody service.env request
    return .ready [.ingest req body storageId]
  | .login cookieToken form token csrf sessionDays => goOn do
    let a ← Login.start service.env db now cookieToken form
    return .attempt a token csrf sessionDays
  | .bootstrap argon2 form token csrf sessionDays =>
    match Projects.bootstrap argon2 form db with
    | .error _ => ⟨none, none⟩
    | .ok (_, userId) =>
      ⟨some (.bootstrap argon2 form), some (.ready [.createSession userId token csrf sessionDays])⟩

/-- Every record of the outcome of a login is a statement of its own. -/
def tryLogin (a : Login.Attempt) (token csrf : String) (sessionDays : Int) : Stage :=
  match a.stage with
  | .checked => .attempt ⟨a.form, Login.findUser db a.form.email⟩ token csrf sessionDays
  | .found userId hash =>
    .attempt ⟨a.form, Login.verify service.env a.form userId hash⟩ token csrf sessionDays
  | .unknown => .ready [.loginFailure a.form.email, .recordLogin ⟨none, "user.login_failed",
      some "identity", some (Auth.loginIdentity service.env a.form.email),
      .object [("reason", .string "unknown_email")]⟩]
  | .rejected userId => .ready [.loginFailure a.form.email, .recordLogin ⟨some userId,
      "user.login_failed", some "user", some (toString userId),
      .object [("reason", .string "wrong_password")]⟩]
  | .accepted userId => .ready [.loginSuccess a.form.email,
      .createSession userId token csrf sessionDays,
      .recordLogin ⟨some userId, "user.login", some "user", some (toString userId), .object []⟩]

def advance : Stage → Move
  | .arrived incoming => receive service now db incoming
  | .signedIn cookie session request => goOn (checkForm service db session cookie request)
  | .member authorized argon2 => goOn do
    let checked ← Projects.readActor authorized db
    return .ready [.writeMember checked argon2]
  | .principal userId call => goOn (checkCall db userId call)
  | .attempt a token csrf sessionDays => ⟨none, some (tryLogin service db a token csrf sessionDays)⟩
  | .ready [] => ⟨none, none⟩
  | .ready (r :: writes) => ⟨some r, some (.ready writes)⟩

/-- The store after one step. -/
def Move.store (m : Move) : Db :=
  match m.write with
  | some r => (execRequest ⟨service.env, publicUrl⟩ now db r).2
  | none => db

/-- A request whose write fails is over. -/
def Move.rest (m : Move) : Option Stage :=
  match m.write with
  | some r => if (execRequest ⟨service.env, publicUrl⟩ now db r).1.isOk then m.next else none
  | none => m.next

/-- The store that the route behind an API token leaves. -/
def runCall (userId : Int) : Call → Db
  | .read => db
  | .updateIssueTags slug issueId payload =>
    (IssueApi.updateIssueTags now db userId slug issueId payload).2
  | .createComment slug issueId body => (IssueApi.createComment now db userId slug issueId body).2
  | .updateComment slug issueId commentId body =>
    (IssueApi.updateComment now db userId slug issueId commentId body).2
  | .deleteComment slug issueId commentId =>
    (IssueApi.deleteComment now db userId slug issueId commentId).2

/-- The store that a login leaves. -/
def runLogin (a : Login.Attempt) (token csrf : String) (sessionDays : Int) : Db :=
  match Login.findUser db a.form.email with
  | .found userId hash =>
    match Login.verify service.env a.form userId hash with
    | .accepted userId =>
      (Login.recordAccepted service.env sessionDays a.form userId now token csrf db).2
    | .rejected userId => Login.recordRejected service.env a.form userId now db
    | _ => db
  | .unknown => Login.recordUnknown service.env a.form now db
  | _ => db

/-- The store that the handler of a request leaves when nothing else runs. -/
def serve : Incoming → Db
  | .form cookie input => (UiForms.serve service none now cookie input db).2
  | .api headers call =>
    match Http.apiPrincipal service.env now db headers with
    | .error _ => db
    | .ok (db, userId) => runCall now db userId call
  | .event request storageId =>
    match Http.ingestProject service.env db request.headers request.slug, Http.eventBody service.env request with
    | .ok req, .ok body => (Ingest.ingest service.env publicUrl req body storageId now db).2
    | _, _ => db
  | .login cookieToken form token csrf sessionDays =>
    match Login.start service.env db now cookieToken form with
    | .error _ => db
    | .ok a => runLogin service now db a token csrf sessionDays
  | .bootstrap argon2 form token csrf sessionDays =>
    match Projects.bootstrap argon2 form db with
    | .error _ => db
    | .ok (db, userId) =>
      (commit (Auth.createSession service.env userId token csrf now sessionDays) db).2

end Advance

/-- A request with the moment of its arrival. -/
structure Pending where
  incoming : Incoming
  since : Nat
  stage : Stage

/-- The store, the requests under way, and the number of steps so far. -/
structure World where
  db : Db
  clock : Int
  moment : Nat
  pending : List Pending

/-- A request may be dropped at any time with its connection. -/
inductive Label where
  | tick (seconds : Nat)
  | arrive (incoming : Incoming)
  | advance (index : Nat)
  | drop (index : Nat)
  | worker (w : Server.WorkerWrite)

section Steps

variable (service : UiForms.Service) (publicUrl : Option String)

def World.advanced (w : World) (index : Nat) (p : Pending) : World :=
  let move := advance service w.clock w.db p.stage
  { w with
    db := move.store service publicUrl w.clock w.db
    moment := w.moment + 1
    pending := match move.rest service publicUrl w.clock w.db with
      | some stage => w.pending.set index { p with stage }
      | none => w.pending.eraseIdx index }

def step (w : World) : Label → Option World
  | .tick seconds => some { w with clock := w.clock + seconds, moment := w.moment + 1 }
  | .arrive incoming => some { w with
      moment := w.moment + 1
      pending := w.pending ++ [⟨incoming, w.moment, .arrived incoming⟩] }
  | .advance index => (w.pending[index]?).map fun p => w.advanced service publicUrl index p
  | .drop index => some { w with moment := w.moment + 1, pending := w.pending.eraseIdx index }
  | .worker write => some { w with
      db := (execWorker w.clock w.db write).2
      moment := w.moment + 1 }

/-- The service as it is installed. -/
def World.start (clock : Int) : World := ⟨.empty, clock, 0, []⟩

variable {service publicUrl}

/-- A step leaves the store alone or runs one operation on it. -/
theorem step_operation {w w' : World} {label : Label} (h : step service publicUrl w label = some w') :
    w'.db = w.db ∨ ∃ op, w'.db = (Server.exec ⟨service.env, publicUrl⟩ w.clock w.db op).2 := by
  cases label with
  | tick | arrive | drop =>
    cases h
    exact .inl rfl
  | advance index =>
    obtain ⟨p, -, rfl⟩ := Option.map_eq_some_iff.mp h
    dsimp only [World.advanced, Move.store]
    split
    · next r _ => exact .inr ⟨.request r, rfl⟩
    · exact .inl rfl
  | worker write =>
    cases h
    exact .inr ⟨.worker write, rfl⟩

/-- However requests interleave, the store is one that a list of operations leaves:
what holds after any operations holds here. -/
theorem run_operations {labels : List Label} {w w' : World}
    (h : Runs.run (step service publicUrl) labels w = some w') :
    ∃ ops, w'.db = Server.after ⟨service.env, publicUrl⟩ ops w.db := by
  refine Runs.run_relation_of (I := fun _ => True)
    (R := fun a b => ∃ ops, b.db = Server.after ⟨service.env, publicUrl⟩ ops a.db)
    (fun _ => ⟨[], rfl⟩) ?_ (fun _ _ _ _ _ => trivial) ?_ h trivial
  · rintro a b c ⟨first, hfirst⟩ ⟨rest, hrest⟩
    exact ⟨first ++ rest, by rw [hrest, hfirst, Server.after_append]⟩
  · intro a label b _ hstep
    rcases step_operation hstep with hsame | ⟨op, hop⟩
    · exact ⟨[], hsame⟩
    · exact ⟨[(a.clock, op)], hop⟩

end Steps

section Alone

variable {service : UiForms.Service} {publicUrl : Option String} {now : Int}

/-- Left alone, a request at this stage leaves the second store. -/
inductive Ends (service : UiForms.Service) (publicUrl : Option String) (now : Int) :
    Db → Stage → Db → Prop where
  | last {db : Db} {stage : Stage}
      (h : (advance service now db stage).rest service publicUrl now db = none) :
      Ends service publicUrl now db stage ((advance service now db stage).store service publicUrl now db)
  | next {db db' : Db} {stage stage' : Stage}
      (h : (advance service now db stage).rest service publicUrl now db = some stage')
      (rest : Ends service publicUrl now ((advance service now db stage).store service publicUrl now db)
        stage' db') : Ends service publicUrl now db stage db'

/-- The same for a check that may refuse the request. -/
def Settles (service : UiForms.Service) (publicUrl : Option String) (now : Int) (db : Db)
    (x : Except AppError Stage) (db' : Db) : Prop :=
  match x with
  | .ok stage => Ends service publicUrl now db stage db'
  | .error _ => db' = db

theorem Ends.refused {db : Db} {stage : Stage} (h : advance service now db stage = ⟨none, none⟩) :
    Ends service publicUrl now db stage db := by
  have hlast := @Ends.last service publicUrl now db stage (by rw [h]; rfl)
  rwa [h] at hlast

theorem Ends.goOn {db db' : Db} {stage : Stage} {x : Except AppError Stage}
    (hmove : advance service now db stage = goOn x) (h : Settles service publicUrl now db x db') :
    Ends service publicUrl now db stage db' := by
  cases x with
  | error e =>
    obtain rfl : db' = db := h
    exact .refused hmove
  | ok stage' =>
    have hrest : (advance service now db stage).rest service publicUrl now db = some stage' := by
      rw [hmove]
      rfl
    refine .next hrest ?_
    rw [hmove]
    exact h

theorem Ends.wrote {db db' changed : Db} {stage : Stage} {reply : Server.Reply} (r : Request)
    (stage' : Stage) (h : advance service now db stage = ⟨some r, some stage'⟩)
    (hwrite : execRequest ⟨service.env, publicUrl⟩ now db r = (.ok reply, changed))
    (rest : Ends service publicUrl now changed stage' db') : Ends service publicUrl now db stage db' := by
  have hrest : (advance service now db stage).rest service publicUrl now db = some stage' := by
    simp only [h, Move.rest, hwrite, Except.isOk, Except.toBool, if_true]
  refine .next hrest ?_
  simp only [h, Move.store, hwrite]
  exact rest

/-- The store after writes of which each needs the one before it. -/
def runWrites (service : UiForms.Service) (publicUrl : Option String) (now : Int) :
    List Request → Db → Db
  | [], db => db
  | r :: writes, db =>
    match execRequest ⟨service.env, publicUrl⟩ now db r with
    | (.ok _, db) => runWrites service publicUrl now writes db
    | (.error _, db) => db

theorem Ends.ready (writes : List Request) (db : Db) :
    Ends service publicUrl now db (.ready writes) (runWrites service publicUrl now writes db) := by
  induction writes generalizing db with
  | nil => exact .last rfl
  | cons r writes ih =>
    cases hwrite : execRequest ⟨service.env, publicUrl⟩ now db r with
    | mk result changed =>
      rw [runWrites, hwrite]
      cases result with
      | ok reply => exact .wrote r (.ready writes) rfl hwrite (ih changed)
      | error e =>
        have hlast := @Ends.last service publicUrl now db (.ready (r :: writes))
          (by simp only [advance, Move.rest, hwrite]; rfl)
        simpa only [advance, Move.store, hwrite] using hlast

section Checks

open UiForms (Handler)

variable {db : Db} {α β : Type}

/-- A check does the same to a handler and to its stages. -/
theorem settles_lift {x : Except AppError α} {f : α → Handler β} {g : α → Except AppError Stage}
    (h : ∀ a, x = .ok a → Settles service publicUrl now db (g a) (f a db).2) :
    Settles service publicUrl now db (x >>= g) (((liftM x : Handler α) >>= f) db).2 := by
  cases x with
  | error e => rfl
  | ok a => exact h a rfl

theorem settles_get {f : Db → Handler β} {y : Except AppError Stage}
    (h : Settles service publicUrl now db y (f db db).2) :
    Settles service publicUrl now db y ((get >>= f) db).2 := by
  rw [UiForms.bind_get]
  exact h

theorem runWrites_singleton (r : Request) :
    runWrites service publicUrl now [r] db = (execRequest ⟨service.env, publicUrl⟩ now db r).2 := by
  rw [runWrites]
  rcases execRequest ⟨service.env, publicUrl⟩ now db r with ⟨e | reply, db'⟩ <;> rfl

theorem settles_ready {db' : Db} (r : Request)
    (h : (execRequest ⟨service.env, publicUrl⟩ now db r).2 = db') :
    Settles service publicUrl now db (pure (.ready [r])) db' := by
  rw [← h, ← runWrites_singleton]
  exact Ends.ready [r] db

/-- After its transaction a handler only reads. -/
theorem settles_write {tx : Tx α} {f : α → Handler β} {r : Request}
    (hafter : ∀ a db', (f a db').2 = db')
    (htx : (execRequest ⟨service.env, publicUrl⟩ now db r).2 = (commit tx db).2) :
    Settles service publicUrl now db (pure (.ready [r])) ((UiForms.write tx >>= f) db).2 := by
  refine settles_ready r (htx.trans ?_)
  rw [UiForms.bind_apply, UiForms.write]
  rcases commit tx db with ⟨e | a, db'⟩
  · rfl
  · exact (hafter a db').symm

theorem settles_checked {x : Except AppError α} {next : α → Except AppError IssueApi.Response × Db}
    {g : α → Except AppError Stage}
    (h : ∀ a, x = .ok a → Settles service publicUrl now db (g a) (next a).2) :
    Settles service publicUrl now db (x >>= g) (IssueApi.checked db x next).2 := by
  cases x with
  | error e => rfl
  | ok a => exact h a rfl

theorem settles_transact {tx : Tx α} {answer : Db → α → Except AppError IssueApi.Response} {r : Request}
    (htx : (execRequest ⟨service.env, publicUrl⟩ now db r).2 = (commit tx db).2) :
    Settles service publicUrl now db (pure (.ready [r])) (IssueApi.transact db tx answer).2 := by
  refine settles_ready r (htx.trans ?_)
  rw [IssueApi.transact]
  rcases commit tx db with ⟨e | a, db'⟩ <;> rfl

/-- What cannot be rendered is an error, and nothing is written either way. -/
theorem lift_reads {x : Except AppError α} {f : α → Handler β} (h : ∀ a, (f a db).2 = db) :
    (((liftM x : Handler α) >>= f) db).2 = db := by
  cases x with
  | error e => rfl
  | ok a => exact h a

theorem flash_reads (session : Auth.Session) (targetId : Int) (message : String) (db : Db) :
    (UiForms.userSettingsFlashResponse service session targetId message db).2 = db := by
  rw [UiForms.userSettingsFlashResponse, UiForms.bind_get]
  split
  · rfl
  · exact lift_reads fun _ => rfl

variable (session : Auth.Session) (cookie : Option String)

theorem settles_status (slug csrfToken : String) (issueId : Int) (status : IssueStatus) :
    Settles service publicUrl now db (checkForm.checkStatus db session slug issueId csrfToken status)
      (IssueApi.setIssueStatus now db session slug issueId csrfToken status).2 :=
  settles_checked fun _ _ => settles_checked fun _ _ => settles_transact rfl

/-- A form that nothing interrupts leaves what its handler leaves. -/
theorem settles_form (request : UiForms.Request) :
    Settles service publicUrl now db (checkForm service db session cookie request)
      (UiForms.handle service none now session cookie request db).2 := by
  cases request with
  | logout form => exact settles_lift fun _ _ => settles_ready _ rfl
  | createProject form =>
    refine settles_lift fun _ hcsrf => settles_lift fun checked hchecked => ?_
    obtain ⟨name, slug, description⟩ := checked
    refine settles_write (fun _ _ => rfl) ?_
    have htx : Projects.createProject session form db =
        Projects.createProjectTx session.userId name slug description db := by
      simp only [Projects.createProject, hcsrf, hchecked, bind, Except.bind]
    simp only [execRequest, Server.silent, commit, htx]
  | createMember slug form argon2 =>
    refine settles_get (settles_lift fun authorized _ => Ends.goOn rfl ?_)
    exact settles_lift fun checked _ => settles_write (fun _ _ => rfl) rfl
  | createIngestKey slug form random =>
    refine settles_lift fun _ _ => settles_get (settles_lift fun projectId _ =>
      settles_write (fun _ db' => ?_) rfl)
    rw [UiForms.bind_get]
    exact lift_reads fun _ => rfl
  | revokeIngestKey slug keyId form =>
    exact settles_lift fun _ _ => settles_get (settles_lift fun projectId _ =>
      settles_write (fun _ _ => rfl) rfl)
  | changeIssueStatus slug issueId form =>
    dsimp only [UiForms.handle, UiForms.onIssues, IssueApi.changeIssueStatus, checkForm]
    cases IssueStatus.parse form.status with
    | none => rfl
    | some status => exact settles_status session slug form.csrfToken issueId status
  | resolveIssue slug issueId form | reopenIssue slug issueId form =>
    exact settles_status session slug form.csrfToken issueId _
  | addComment slug issueId form | editCommentForm slug issueId commentId form =>
    exact settles_checked fun _ _ => settles_checked fun _ _ => settles_checked fun _ _ =>
      settles_transact rfl
  | deleteCommentForm slug issueId commentId form =>
    exact settles_checked fun _ _ => settles_checked fun _ _ => settles_transact rfl
  | updateIssueTagsForm slug issueId form =>
    exact settles_checked fun _ _ => settles_checked fun _ _ => settles_checked fun _ _ =>
      settles_transact rfl
  | updateProfile userId form =>
    exact settles_lift fun _ _ => settles_get (settles_lift fun targetId _ =>
      settles_lift fun displayName _ =>
        settles_write (fun _ db' => flash_reads session targetId _ db') rfl)
  | uploadAvatar userId body =>
    exact settles_lift fun form _ => settles_lift fun _ _ => settles_get (settles_lift fun targetId _ =>
      settles_lift fun png _ =>
        settles_write (fun _ db' => flash_reads session targetId _ db') rfl)
  | deleteAvatar userId form =>
    exact settles_lift fun _ _ => settles_get (settles_lift fun targetId _ =>
      settles_write (fun _ db' => flash_reads session targetId _ db') rfl)
  | changePassword userId form argon2 =>
    exact settles_lift fun _ _ => settles_get (settles_lift fun newHash _ =>
      settles_write (fun _ _ => rfl) rfl)
  | revokeOtherSessions userId form | revokeSession userId sessionId form =>
    refine settles_lift fun _ _ => ?_
    dsimp only
    split
    · rfl
    · exact settles_write (fun _ _ => rfl) rfl
  | createWebhook slug form =>
    exact settles_lift fun _ _ => settles_get (settles_lift fun projectId _ =>
      settles_lift fun endpoint _ => settles_write (fun _ _ => rfl) rfl)
  | deleteWebhook slug webhookId form =>
    exact settles_lift fun _ _ => settles_get (settles_lift fun projectId _ =>
      settles_write (fun _ _ => rfl) rfl)
  | createApiToken form random =>
    refine settles_lift fun _ _ => settles_lift fun name _ => settles_write (fun _ db' => ?_) rfl
    rw [UiForms.bind_get]
    exact lift_reads fun _ => rfl
  | revokeApiToken tokenId form =>
    exact settles_lift fun _ _ => settles_write (fun _ _ => rfl) rfl

theorem settles_call (userId : Int) (call : Call) :
    Settles service publicUrl now db (checkCall db userId call) (runCall now db userId call) := by
  cases call with
  | read => exact Ends.ready [] db
  | updateIssueTags | createComment | updateComment =>
    exact settles_checked fun _ _ => settles_checked fun _ _ => settles_transact rfl
  | deleteComment => exact settles_checked fun _ _ => settles_transact rfl

end Checks

section Arrivals

variable {db : Db}

theorem Ends.attempt {db' : Db} {a : Login.Attempt} {token csrf : String} {sessionDays : Int}
    (h : Ends service publicUrl now db (tryLogin service db a token csrf sessionDays) db') :
    Ends service publicUrl now db (.attempt a token csrf sessionDays) db' := .next rfl h

/-- The writes of an accepted login stop where the session cannot be created. -/
theorem runWrites_accepted (form : Login.LoginForm) (userId : Int) (token csrf : String)
    (sessionDays : Int) :
    runWrites service publicUrl now [.loginSuccess form.email,
        .createSession userId token csrf sessionDays,
        .recordLogin ⟨some userId, "user.login", some "user", some (toString userId), .object []⟩] db =
      (Login.recordAccepted service.env sessionDays form userId now token csrf db).2 := by
  simp only [runWrites, execRequest, Server.silent, commit, Login.recordAccepted]
  cases Auth.createSession service.env userId token csrf now sessionDays
      (Auth.loginSuccess service.env db form.email) with
  | ok opened => rfl
  | error e => rfl

theorem ends_login (form : Login.LoginForm) (token csrf : String) (sessionDays : Int) :
    Ends service publicUrl now db (.attempt ⟨form, .checked⟩ token csrf sessionDays)
      (runLogin service now db ⟨form, .checked⟩ token csrf sessionDays) := by
  refine .attempt ?_
  dsimp only [tryLogin, runLogin]
  rcases Login.findUser_cases db form.email with ⟨userId, u, -, -, hfound⟩ | hunknown
  · rw [hfound]
    refine .attempt ?_
    dsimp only [tryLogin]
    rcases Login.verify_cases service.env form userId u.passwordHash with haccepted | hrejected
    · rw [haccepted]
      dsimp only
      rw [← runWrites_accepted]
      exact .attempt (Ends.ready _ db)
    · rw [hrejected]
      exact .attempt (Ends.ready _ db)
  · rw [hunknown]
    exact .attempt (Ends.ready _ db)

/-- A request that arrives and is left alone leaves what its handler leaves. -/
theorem ends_serve (incoming : Incoming) :
    Ends service publicUrl now db (.arrived incoming) (serve service publicUrl now db incoming) := by
  cases incoming with
  | form cookie input =>
    refine .goOn rfl (settles_get (settles_lift fun session _ => settles_lift fun request _ => ?_))
    exact .goOn rfl (settles_form session cookie request)
  | api headers call =>
    simp only [serve, Http.apiPrincipal]
    cases hbearer : Http.bearer service.env headers with
    | error e => exact .refused (by simp only [advance, receive, hbearer])
    | ok credential =>
      change Ends service publicUrl now db _
        (match Settings.apiTokenUser service.env credential now db with
        | .error _ => db
        | .ok (db, userId) => runCall now db userId call)
      cases huser : Settings.apiTokenUser service.env credential now db with
      | error e => exact .refused (by simp only [advance, receive, hbearer, huser])
      | ok found =>
        obtain ⟨used, userId⟩ := found
        have hmove : advance service now db (.arrived (.api headers call)) =
            ⟨some (.account (.useApiToken credential)), some (.principal userId call)⟩ := by
          simp only [advance, receive, hbearer, huser]
        have hused : execRequest ⟨service.env, publicUrl⟩ now db (.account (.useApiToken credential)) =
            (.ok .none, used) := by
          simp only [execRequest, Server.silent, commit, Settings.exec, huser, Except.map]
        exact .wrote _ _ hmove hused (.goOn rfl (settles_call userId call))
  | event request storageId =>
    refine .goOn rfl ?_
    dsimp only [serve]
    cases Http.ingestProject service.env db request.headers request.slug with
    | error e => rfl
    | ok req =>
      cases Http.eventBody service.env request with
      | error e => rfl
      | ok body => exact settles_ready _ rfl
  | login cookieToken form token csrf sessionDays =>
    refine .goOn rfl ?_
    dsimp only [serve]
    cases hstart : Login.start service.env db now cookieToken form with
    | error e => rfl
    | ok a =>
      obtain ⟨rfl, -⟩ := Login.start_ok hstart
      exact ends_login form token csrf sessionDays
  | bootstrap argon2 form token csrf sessionDays =>
    dsimp only [serve]
    cases hbootstrap : Projects.bootstrap argon2 form db with
    | error e => exact .refused (by simp only [advance, receive, hbootstrap])
    | ok created =>
      obtain ⟨db', userId⟩ := created
      have hmove : advance service now db (.arrived (.bootstrap argon2 form token csrf sessionDays)) =
          ⟨some (.bootstrap argon2 form),
            some (.ready [.createSession userId token csrf sessionDays])⟩ := by
        simp only [advance, receive, hbootstrap]
      have hcreated : execRequest ⟨service.env, publicUrl⟩ now db (.bootstrap argon2 form) =
          (.ok .none, db') := by
        simp only [execRequest, Server.silent, commit, hbootstrap, Except.map]
      exact .wrote _ _ hmove hcreated (settles_ready _ rfl)

/-- The steps of a request that is alone. -/
theorem Ends.run {db db' : Db} {stage : Stage} (h : Ends service publicUrl now db stage db')
    (incoming : Incoming) (since moment : Nat) : ∃ n moment',
      Runs.run (step service publicUrl) (List.replicate n (.advance 0))
        ⟨db, now, moment, [⟨incoming, since, stage⟩]⟩ = some ⟨db', now, moment', []⟩ := by
  induction h generalizing moment with
  | @last db stage hlast =>
    refine ⟨1, moment + 1, ?_⟩
    rw [List.replicate_one, Runs.run_singleton]
    simp [step, World.advanced, hlast]
  | @next db db' stage stage' hnext _ ih =>
    obtain ⟨n, moment', hrun⟩ := ih (moment + 1)
    refine ⟨n + 1, moment', ?_⟩
    rw [List.replicate_succ, Runs.run_cons_some]
    refine ⟨_, ?_, hrun⟩
    simp [step, World.advanced, hnext]

/-- A request that arrives when nothing else is under way, and that nothing
interrupts, ends with the store that its handler leaves. -/
theorem served (service : UiForms.Service) (publicUrl : Option String) (db : Db) (now : Int)
    (moment : Nat) (incoming : Incoming) : ∃ n moment',
      Runs.run (step service publicUrl) (.arrive incoming :: List.replicate n (.advance 0))
        ⟨db, now, moment, []⟩ =
          some ⟨serve service publicUrl now db incoming, now, moment', []⟩ := by
  obtain ⟨n, moment', hrun⟩ := (ends_serve incoming).run incoming moment (moment + 1)
  exact ⟨n, moment', Runs.run_cons_some.mpr ⟨_, rfl, hrun⟩⟩

end Arrivals

end Alone

end Zbierak.Requests
