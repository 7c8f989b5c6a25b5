import Zbierak.Ingest
import Zbierak.Issues
import Zbierak.Outbox
import Zbierak.Projects
import Zbierak.Settings
import Zbierak.Webhooks
import Zbierak.Lib.Runs

/-!
# The service as one system

Every write transaction of the service is an operation on the store. What a
handler read before its transaction (project, role, session) arrives as an
argument, so that the operations in any order cover every interleaving of the
handlers. `exec_frame` says which tables an operation leaves alone, and
`exec_change` what it does to issues, events, activity, endpoints and the outbox.
-/
namespace Zbierak.Server

open Ingest (IngestProject)

/-- Transactions that requests run. -/
inductive Request where
  | ingest (req : IngestProject) (body : Bytes) (storageId : String)
  | setIssueStatus (projectId issueId userId : Int) (status : IssueStatus)
  | replaceIssueTags (projectId issueId userId : Int) (tags : List String)
  | insertComment (projectId userId issueId : Int) (body : String)
  | updateComment (projectId userId issueId commentId : Int) (body : String)
  | deleteComment (projectId userId issueId commentId : Int)
  | bootstrap (argon2 : Except String String) (form : Projects.BootstrapForm)
  | createProject (session : Auth.Session) (form : Projects.ProjectForm)
  | writeMember (request : Projects.CheckedMember) (argon2 : Except String String)
  | createIngestKey (projectId userId : Int) (name key : String)
  | revokeIngestKey (projectId userId keyId : Int) (slug : String)
  | createWebhook (slug : String) (endpoint : Endpoint)
  | deleteWebhook (projectId userId webhookId : Int) (slug : String)
  | loginFailure (email : String)
  | loginSuccess (email : String)
  | createSession (userId : Int) (token csrf : String) (sessionDays : Int)
  | recordLogin (row : AuditRow)
  | account (request : Settings.Request)

/-- Statements that the delivery worker runs. -/
inductive WorkerWrite where
  | claim
  | markDelivered (id : Int)
  | fail (id attempts : Int) (error : String)

inductive Op where
  | request (r : Request)
  | worker (w : WorkerWrite)

/-- What an operation answers, where anything looks at it. -/
inductive Reply where
  | none
  | ingested (response : IngestResponse)
  | claimed (delivery : Option Outbox.Delivery)

/-- Libraries and the public address the service was started with. -/
structure Setup where
  env : Crates
  publicUrl : Option String

def silent {α : Type} (result : Except AppError α × Db) : Except AppError Reply × Db :=
  (result.1.map fun _ => .none, result.2)

def execRequest (cfg : Setup) (now : Int) (db : Db) : Request → Except AppError Reply × Db
  | .ingest req body storageId =>
    let result := Ingest.ingest cfg.env cfg.publicUrl req body storageId now db
    (result.1.map .ingested, result.2)
  | .setIssueStatus projectId issueId userId status =>
    silent (commit (Issues.setIssueStatusTx projectId issueId userId status now) db)
  | .replaceIssueTags projectId issueId userId tags =>
    silent (commit (Issues.replaceIssueTags projectId issueId userId tags now) db)
  | .insertComment projectId userId issueId body =>
    silent (commit (Issues.insertCommentTx projectId userId issueId body now) db)
  | .updateComment projectId userId issueId commentId body =>
    silent (commit (Issues.updateCommentTx projectId userId issueId commentId body now) db)
  | .deleteComment projectId userId issueId commentId =>
    silent (commit (Issues.deleteCommentTx projectId userId issueId commentId now) db)
  | .bootstrap argon2 form => silent (commit (Projects.bootstrap argon2 form) db)
  | .createProject session form => silent (commit (Projects.createProject session form) db)
  | .writeMember request argon2 => silent (commit (Projects.writeMember request argon2) db)
  | .createIngestKey projectId userId name key =>
    silent (commit (Projects.createIngestKey cfg.env projectId userId name key) db)
  | .revokeIngestKey projectId userId keyId slug =>
    silent (commit (Projects.revokeIngestKey projectId userId keyId slug now) db)
  | .createWebhook slug endpoint => silent (commit (Webhooks.createWebhookTx slug endpoint) db)
  | .deleteWebhook projectId userId webhookId slug =>
    silent (commit (Webhooks.deleteWebhookTx projectId userId webhookId slug) db)
  | .loginFailure email => (.ok .none, Auth.loginFailure cfg.env db email now)
  | .loginSuccess email => (.ok .none, Auth.loginSuccess cfg.env db email)
  | .createSession userId token csrf sessionDays =>
    silent (commit (Auth.createSession cfg.env userId token csrf now sessionDays) db)
  | .recordLogin row =>
    (.ok .none, db.record row.userId row.action row.targetType row.targetId row.details)
  | .account request => silent (commit (Settings.exec cfg.env none now request) db)

def execWorker (now : Int) (db : Db) : WorkerWrite → Except AppError Reply × Db
  | .claim =>
    let result := Outbox.claim now db
    (result.1.map .claimed, result.2)
  | .markDelivered id => (.ok .none, Outbox.markDelivered now id db)
  | .fail id attempts error => (.ok .none, Outbox.fail now id attempts error db)

def exec (cfg : Setup) (now : Int) (db : Db) : Op → Except AppError Reply × Db
  | .request r => execRequest cfg now db r
  | .worker w => execWorker now db w

/-- One operation at one reading of the clock. -/
def step (cfg : Setup) (db : Db) (op : Int × Op) : Option Db := some (exec cfg op.1 db op.2).2

/-- The store after a list of operations. -/
def after (cfg : Setup) (ops : List (Int × Op)) (db : Db) : Db :=
  ops.foldl (fun db op => (exec cfg op.1 db op.2).2) db

@[simp] theorem after_nil (cfg : Setup) (db : Db) : after cfg [] db = db := rfl

@[simp] theorem after_cons (cfg : Setup) (op : Int × Op) (ops : List (Int × Op)) (db : Db) :
    after cfg (op :: ops) db = after cfg ops (exec cfg op.1 db op.2).2 := rfl

theorem after_append (cfg : Setup) (xs ys : List (Int × Op)) (db : Db) :
    after cfg (xs ++ ys) db = after cfg ys (after cfg xs db) := List.foldl_append

theorem run_eq_after (cfg : Setup) (ops : List (Int × Op)) (db : Db) :
    Runs.run (step cfg) ops db = some (after cfg ops db) := by
  induction ops generalizing db with
  | nil => rfl
  | cons op ops ih => exact ih _

/-- A property that every operation keeps holds after any operations. -/
theorem after_invariant {cfg : Setup} {I : Db → Prop}
    (keep : ∀ now db op, I db → I (exec cfg now db op).2) (ops : List (Int × Op)) {db : Db}
    (h : I db) : I (after cfg ops db) := by
  have hkeep : ∀ s op t, I s → step cfg s op = some t → I t := by
    intro s op t hs hstep
    obtain rfl : (exec cfg op.1 s op.2).2 = t := by simpa [step] using hstep
    exact keep op.1 s op.2 hs
  exact Runs.run_invariant hkeep (run_eq_after cfg ops db) h

/-- Issues and events are the same rows. -/
structure SameIssues (db db' : Db) : Prop where
  issues : db'.issues = db.issues
  rawEvents : db'.rawEvents = db.rawEvents
  events : db'.events = db.events

/-- Endpoints and queued notifications are the same rows. -/
structure SameQueue (db db' : Db) : Prop where
  endpoints : db'.endpoints = db.endpoints
  outbox : db'.outbox = db.outbox

theorem SameIssues.refl (db : Db) : SameIssues db db := ⟨rfl, rfl, rfl⟩

theorem SameQueue.refl (db : Db) : SameQueue db db := ⟨rfl, rfl⟩

/-- Everything an operation can do to issues, events, activity, endpoints and
the outbox. -/
inductive Change (cfg : Setup) (now : Int) (db : Db) : Op → Except AppError Reply × Db → Prop where
  | account {op : Op} {reply : Except AppError Reply} {db' : Db} (hissues : SameIssues db db')
      (hqueue : SameQueue db db') (hactivity : db'.activity = db.activity) :
      Change cfg now db op (reply, db')
  | status {reply : Except AppError Reply} {db' : Db} (projectId issueId userId : Int)
      (status : IssueStatus) (i : Issue)
      (hi : Issues.issueIn db projectId issueId = some i) (hne : i.status ≠ status)
      (hdb : db' = { db with
        issues := db.issues.update (fun id i => id = issueId ∧ i.projectId = projectId) fun i =>
          { i with status }
        activity := db.activity.insert ⟨issueId, some userId, .status,
          .object [("from", .string i.status.asStr), ("to", .string status.asStr)], now⟩ }) :
      Change cfg now db (.request (.setIssueStatus projectId issueId userId status)) (reply, db')
  | timeline {op : Op} {reply : Except AppError Reply} {db' : Db} (a : Activity)
      (hissue : (db.issues.get? a.issueId).isSome) (hkind : a.kind.movesStatus = false)
      (hactivity : db'.activity = db.activity.insert a) (hissues : SameIssues db db')
      (hqueue : SameQueue db db') : Change cfg now db op (reply, db')
  | endpointAdded {op : Op} {reply : Except AppError Reply} {db' : Db} (e : Endpoint)
      (hendpoints : db'.endpoints = db.endpoints.insert e) (houtbox : db'.outbox = db.outbox)
      (hissues : SameIssues db db') (hactivity : db'.activity = db.activity) :
      Change cfg now db op (reply, db')
  | endpointRemoved {op : Op} {reply : Except AppError Reply} {db' : Db} (endpointId : Int)
      (hendpoints : db'.endpoints = db.endpoints.delete fun id _ => id = endpointId)
      (houtbox : db'.outbox = db.outbox.delete fun _ row => row.endpointId = endpointId)
      (hissues : SameIssues db db') (hactivity : db'.activity = db.activity) :
      Change cfg now db op (reply, db')
  | delivery {w : WorkerWrite} {reply : Except AppError Reply} {db' : Db} (id : Int)
      (f : OutboxRow → OutboxRow) (houtbox : db'.outbox = db.outbox.update (fun i _ => i = id) f)
      (hf : ∀ row, (f row).endpointId = row.endpointId ∧ (f row).eventType = row.eventType ∧
        (f row).payloadJson = row.payloadJson)
      (hendpoints : db'.endpoints = db.endpoints) (hissues : SameIssues db db')
      (hactivity : db'.activity = db.activity) : Change cfg now db (.worker w) (reply, db')
  | accepted (req : IngestProject) (body : Bytes) (storageId : String) (p : Ingest.Prepared)
      (hp : Ingest.prepare cfg.env body = .ok p)
      (hraw : Ingest.findRaw db req.projectId p.eventId = none)
      (hid : ∀ r ∈ db.rawEvents, r.id ≠ storageId)
      (hevent : ∀ e ∈ db.events, e.id ≠ storageId) :
      Change cfg now db (.request (.ingest req body storageId))
        (.ok (.ingested ⟨p.eventId, Ingest.issueOf req p db.issues, p.fingerprint, false⟩),
          Ingest.accepted cfg.env cfg.publicUrl req body p storageId now db)

theorem timeline_commit {cfg : Setup} {now : Int} {db : Db} {op : Op} {α : Type} {tx : Tx α}
    (h : ∀ db' a, tx db = .ok (db', a) → db' = db ∨ (SameIssues db db' ∧ SameQueue db db' ∧
      ∃ a, (db.issues.get? a.issueId).isSome = true ∧ a.kind.movesStatus = false ∧
        db'.activity = db.activity.insert a)) :
    Change cfg now db op (silent (commit tx db)) := by
  rcases commit_cases tx db with ⟨db', a, htx, hc⟩ | ⟨e, -, hc⟩
  · rw [hc]
    rcases h db' a htx with rfl | ⟨hissues, hqueue, a, hissue, hkind, hactivity⟩
    · exact .account (.refl _) (.refl _) rfl
    · exact .timeline a hissue hkind hactivity hissues hqueue
  · rw [hc]
    exact .account (.refl db) (.refl db) rfl

/-- A request to ingest is refused, repeats an accepted event, or accepts one. -/
theorem exec_ingest (cfg : Setup) (now : Int) (db : Db) (req : IngestProject) (body : Bytes)
    (storageId : String) :
    (∃ e, exec cfg now db (.request (.ingest req body storageId)) = (.error e, db)) ∨
    (∃ response, response.duplicate = true ∧
      exec cfg now db (.request (.ingest req body storageId)) =
        (.ok (.ingested response), Ingest.touchKey db req.keyId now)) ∨
    (∃ p, Ingest.prepare cfg.env body = .ok p ∧ Ingest.findRaw db req.projectId p.eventId = none ∧
      (∀ r ∈ db.rawEvents, r.id ≠ storageId) ∧ (∀ e ∈ db.events, e.id ≠ storageId) ∧
      exec cfg now db (.request (.ingest req body storageId)) =
        (.ok (.ingested ⟨p.eventId, Ingest.issueOf req p db.issues, p.fingerprint, false⟩),
          Ingest.accepted cfg.env cfg.publicUrl req body p storageId now db)) := by
  have h := Ingest.ingest_cases cfg.env cfg.publicUrl req body storageId now db
  simp only [exec, execRequest]
  generalize Ingest.ingest cfg.env cfg.publicUrl req body storageId now db = result at h
  cases h with
  | refused e => exact .inl ⟨e, rfl⟩
  | repeated => exact .inr (.inl ⟨_, rfl, rfl⟩)
  | accepted p hp hraw hid _ _ hevent => exact .inr (.inr ⟨p, hp, hraw, hid, hevent, rfl⟩)

/-- The tables of the store. -/
inductive TableName where
  | users | sessions | projects | memberships | ingestKeys | issues | rawEvents | events | comments
  | endpoints | outbox | activity | issueTags | loginThrottle | apiTokens | userAvatars | auditLog
  deriving DecidableEq

/-- Two stores have the same rows in a table. -/
def SameTable (db db' : Db) : TableName → Prop
  | .users => db'.users = db.users
  | .sessions => db'.sessions = db.sessions
  | .projects => db'.projects = db.projects
  | .memberships => db'.memberships = db.memberships
  | .ingestKeys => db'.ingestKeys = db.ingestKeys
  | .issues => db'.issues = db.issues
  | .rawEvents => db'.rawEvents = db.rawEvents
  | .events => db'.events = db.events
  | .comments => db'.comments = db.comments
  | .endpoints => db'.endpoints = db.endpoints
  | .outbox => db'.outbox = db.outbox
  | .activity => db'.activity = db.activity
  | .issueTags => db'.issueTags = db.issueTags
  | .loginThrottle => db'.loginThrottle = db.loginThrottle
  | .apiTokens => db'.apiTokens = db.apiTokens
  | .userAvatars => db'.userAvatars = db.userAvatars
  | .auditLog => db'.auditLog = db.auditLog

theorem SameTable.refl (db : Db) (t : TableName) : SameTable db db t := by
  cases t <;> rfl

/-- The tables that the statements of an operation name. -/
def Request.writes : Request → List TableName
  | .ingest _ _ _ => [.ingestKeys, .issues, .rawEvents, .events, .issueTags, .activity, .outbox]
  | .setIssueStatus _ _ _ _ => [.issues, .activity]
  | .replaceIssueTags _ _ _ _ => [.issueTags, .activity]
  | .insertComment _ _ _ _ | .updateComment _ _ _ _ _ | .deleteComment _ _ _ _ =>
    [.comments, .activity]
  | .bootstrap _ _ => [.users]
  | .createProject _ _ => [.projects, .memberships]
  | .writeMember _ _ => [.users, .memberships]
  | .createIngestKey _ _ _ _ => [.ingestKeys]
  | .revokeIngestKey _ _ _ _ => [.ingestKeys, .auditLog]
  | .createWebhook _ _ => [.endpoints, .auditLog]
  | .deleteWebhook _ _ _ _ => [.endpoints, .outbox, .auditLog]
  | .loginFailure _ | .loginSuccess _ => [.loginThrottle]
  | .createSession _ _ _ _ => [.sessions]
  | .recordLogin _ => [.auditLog]
  | .account _ => [.users, .sessions, .loginThrottle, .apiTokens, .userAvatars, .auditLog]

def Op.writes : Op → List TableName
  | .request r => r.writes
  | .worker _ => [.outbox]

/-- Tables outside `written` have the same rows. -/
def Frame (written : List TableName) (db db' : Db) : Prop :=
  ∀ t, written.contains t = false → SameTable db db' t

theorem Frame.refl (written : List TableName) (db : Db) : Frame written db db :=
  fun t _ => .refl db t

/-- Several tables that an operation does not name. -/
theorem Frame.same {written tables : List TableName} {db db' : Db} (h : Frame written db db')
    (htables : tables.all (fun t => !written.contains t) = true) : ∀ t ∈ tables, SameTable db db' t := by
  intro t ht
  have hnot := List.all_eq_true.mp htables t ht
  exact h t (by simpa using hnot)

theorem frame_commit {written : List TableName} {db : Db} {α : Type} {tx : Tx α}
    (h : ∀ db' a, tx db = .ok (db', a) → Frame written db db') :
    Frame written db (silent (commit tx db)).2 :=
  commit_snd (Frame written db) (.refl written db) h

/-- An operation leaves the tables alone that its statements do not name. -/
theorem exec_frame (cfg : Setup) (now : Int) (db : Db) (op : Op) :
    Frame op.writes db (exec cfg now db op).2 := by
  cases op with
  | request r =>
    cases r with
    | ingest req body storageId =>
      rcases exec_ingest cfg now db req body storageId with
        ⟨e, h⟩ | ⟨response, -, h⟩ | ⟨p, -, -, -, -, h⟩ <;> rw [h]
      · exact .refl _ db
      -- Over the tables: a written one contradicts the hypothesis, any other is the same field.
      · rintro ⟨⟩ ⟨⟩ <;> rfl
      · rintro ⟨⟩ ⟨⟩ <;> rfl
    | setIssueStatus projectId issueId userId status =>
      refine frame_commit fun db' a htx => ?_
      obtain ⟨i, -, ⟨-, rfl⟩ | ⟨-, rfl⟩⟩ := Issues.setIssueStatusTx_ok htx
      · exact .refl _ _
      · rintro ⟨⟩ ⟨⟩ <;> rfl
    | replaceIssueTags projectId issueId userId tags =>
      refine frame_commit fun db' a htx => ?_
      obtain ⟨-, rfl | ⟨details, rfl⟩⟩ := Issues.replaceIssueTags_ok htx
      · exact .refl _ _
      · rintro ⟨⟩ ⟨⟩ <;> rfl
    | insertComment projectId userId issueId body =>
      refine frame_commit fun db' a htx => ?_
      obtain ⟨-, -, rfl⟩ := Issues.insertCommentTx_ok htx
      rintro ⟨⟩ ⟨⟩ <;> rfl
    | updateComment | deleteComment =>
      refine frame_commit fun db' a htx => ?_
      obtain ⟨-, -, rfl⟩ := Issues.modifyCommentTx_ok htx
      rintro ⟨⟩ ⟨⟩ <;> rfl
    | bootstrap argon2 form =>
      refine frame_commit fun db' a htx => ?_
      obtain ⟨-, u, rfl⟩ := Projects.bootstrap_ok htx
      rintro ⟨⟩ ⟨⟩ <;> rfl
    | createProject session form =>
      refine frame_commit fun db' a htx => ?_
      obtain ⟨name, slug, description, -, -, rfl⟩ := Projects.createProject_ok htx
      rintro ⟨⟩ ⟨⟩ <;> rfl
    | writeMember request argon2 =>
      refine frame_commit fun db' a htx => ?_
      obtain ⟨-, -, users, -, rfl⟩ := Projects.writeMember_ok htx
      rintro ⟨⟩ ⟨⟩ <;> rfl
    | createIngestKey projectId userId name key =>
      refine frame_commit fun db' a htx => ?_
      obtain ⟨k, -, rfl⟩ := Projects.createIngestKey_ok htx
      rintro ⟨⟩ ⟨⟩ <;> rfl
    | revokeIngestKey projectId userId keyId slug =>
      refine frame_commit fun db' a htx => ?_
      obtain ⟨auditLog, rfl⟩ := Projects.revokeIngestKey_ok htx
      rintro ⟨⟩ ⟨⟩ <;> rfl
    | deleteWebhook projectId userId webhookId slug =>
      refine frame_commit fun db' a htx => ?_
      obtain ⟨auditLog, rfl⟩ := Webhooks.deleteWebhookTx_ok htx
      rintro ⟨⟩ ⟨⟩ <;> rfl
    | createSession userId token csrf sessionDays =>
      refine frame_commit fun db' a htx => ?_
      obtain ⟨-, rfl⟩ := Auth.createSession_ok htx
      rintro ⟨⟩ ⟨⟩ <;> rfl
    | createWebhook | loginFailure | loginSuccess | recordLogin =>
      rintro ⟨⟩ ⟨⟩ <;> rfl
    | account request =>
      refine frame_commit fun db' a htx => ?_
      have hsame := Settings.exec_sameProjects htx
      rintro ⟨⟩ ⟨⟩
      · exact hsame.projects
      · exact hsame.memberships
      · exact hsame.ingestKeys
      · exact hsame.issues
      · exact hsame.rawEvents
      · exact hsame.events
      · exact hsame.comments
      · exact hsame.endpoints
      · exact hsame.outbox
      · exact hsame.activity
      · exact hsame.issueTags
  | worker w =>
    cases w with
    | claim =>
      simp only [exec, execWorker]
      rcases Outbox.claim_cases now db with ⟨hc, -⟩ | ⟨id, row, -, -, hdb, -⟩
      · rw [hc]
        exact .refl _ db
      · rw [hdb]
        rintro ⟨⟩ ⟨⟩ <;> rfl
    | markDelivered | fail => rintro ⟨⟩ ⟨⟩ <;> rfl

/-- An operation that names none of the tables of `Change`. -/
theorem change_of_frame {cfg : Setup} {now : Int} {db : Db} {op : Op}
    {result : Except AppError Reply × Db} (hframe : Frame op.writes db result.2)
    (hwrites : [TableName.issues, .rawEvents, .events, .endpoints, .outbox, .activity].all
      (fun t => !op.writes.contains t) = true) : Change cfg now db op result := by
  have hsame := hframe.same hwrites
  exact .account ⟨hsame .issues (by simp), hsame .rawEvents (by simp), hsame .events (by simp)⟩
    ⟨hsame .endpoints (by simp), hsame .outbox (by simp)⟩ (hsame .activity (by simp))

theorem exec_change (cfg : Setup) (now : Int) (db : Db) (op : Op) :
    Change cfg now db op (exec cfg now db op) := by
  have hframe := exec_frame cfg now db op
  cases op with
  | request r =>
    cases r with
    | ingest req body storageId =>
      rcases exec_ingest cfg now db req body storageId with
        ⟨e, h⟩ | ⟨response, -, h⟩ | ⟨p, hp, hraw, hid, hevent, h⟩
      · rw [h]
        exact .account (.refl db) (.refl db) rfl
      · rw [h]
        exact .account ⟨rfl, rfl, rfl⟩ ⟨rfl, rfl⟩ rfl
      · rw [h]
        exact .accepted req body storageId p hp hraw hid hevent
    | setIssueStatus projectId issueId userId status =>
      simp only [exec, execRequest]
      rcases commit_cases (Issues.setIssueStatusTx projectId issueId userId status now) db with
        ⟨db', a, htx, hc⟩ | ⟨e, -, hc⟩
      · rw [hc]
        obtain ⟨i, hi, ⟨-, rfl⟩ | ⟨hne, hdb⟩⟩ := Issues.setIssueStatusTx_ok htx
        · exact .account (.refl _) (.refl _) rfl
        · exact .status projectId issueId userId status i hi hne hdb
      · rw [hc]
        exact .account (.refl db) (.refl db) rfl
    | replaceIssueTags projectId issueId userId tags =>
      refine timeline_commit fun db' a htx => ?_
      obtain ⟨hi, rfl | ⟨details, rfl⟩⟩ := Issues.replaceIssueTags_ok htx
      · exact .inl rfl
      · exact .inr ⟨⟨rfl, rfl, rfl⟩, ⟨rfl, rfl⟩, _, Issues.issue_of_issueIn hi, rfl, rfl⟩
    | insertComment projectId userId issueId body =>
      refine timeline_commit fun db' a htx => ?_
      obtain ⟨hi, -, rfl⟩ := Issues.insertCommentTx_ok htx
      exact .inr ⟨⟨rfl, rfl, rfl⟩, ⟨rfl, rfl⟩, _, Issues.issue_of_issueIn hi, rfl, rfl⟩
    | updateComment projectId userId issueId commentId body =>
      refine timeline_commit fun db' a htx => ?_
      obtain ⟨hi, -, rfl⟩ := Issues.modifyCommentTx_ok htx
      exact .inr ⟨⟨rfl, rfl, rfl⟩, ⟨rfl, rfl⟩, _, Issues.issue_of_issueIn hi, rfl, rfl⟩
    | deleteComment projectId userId issueId commentId =>
      refine timeline_commit fun db' a htx => ?_
      obtain ⟨hi, -, rfl⟩ := Issues.modifyCommentTx_ok htx
      exact .inr ⟨⟨rfl, rfl, rfl⟩, ⟨rfl, rfl⟩, _, Issues.issue_of_issueIn hi, rfl, rfl⟩
    | createWebhook slug endpoint =>
      exact .endpointAdded endpoint rfl rfl ⟨rfl, rfl, rfl⟩ rfl
    | deleteWebhook projectId userId webhookId slug =>
      simp only [exec, execRequest]
      rcases commit_cases (Webhooks.deleteWebhookTx projectId userId webhookId slug) db with
        ⟨db', a, htx, hc⟩ | ⟨e, -, hc⟩
      · rw [hc]
        obtain ⟨auditLog, rfl⟩ := Webhooks.deleteWebhookTx_ok htx
        exact .endpointRemoved webhookId rfl rfl ⟨rfl, rfl, rfl⟩ rfl
      · rw [hc]
        exact .account (.refl db) (.refl db) rfl
    | bootstrap | createProject | writeMember | createIngestKey | revokeIngestKey | loginFailure
    | loginSuccess | createSession | recordLogin | account =>
      exact change_of_frame hframe rfl
  | worker w =>
    cases w with
    | claim =>
      simp only [exec, execWorker]
      rcases Outbox.claim_cases now db with ⟨hc, -⟩ | ⟨id, row, -, -, hdb, -⟩
      · rw [hc]
        exact .account (.refl db) (.refl db) rfl
      · rw [hdb]
        exact .delivery id (Outbox.lockRow now) rfl (fun _ => ⟨rfl, rfl, rfl⟩) rfl ⟨rfl, rfl, rfl⟩ rfl
    | markDelivered id =>
      exact .delivery id (Outbox.completeRow now) rfl (fun _ => ⟨rfl, rfl, rfl⟩) rfl
        ⟨rfl, rfl, rfl⟩ rfl
    | fail id attempts error =>
      exact .delivery id (Outbox.rescheduleRow now attempts error) rfl (fun _ => ⟨rfl, rfl, rfl⟩) rfl
        ⟨rfl, rfl, rfl⟩ rfl

/-- A request leaves a row of the outbox alone, removes it, or inserts it as a new one
that nobody has tried yet. -/
theorem request_row (cfg : Setup) (now : Int) (db : Db) (r : Request) {id : Int} {row : OutboxRow}
    (h : (exec cfg now db (.request r)).2.outbox.get? id = some row) :
    db.outbox.get? id = some row ∨ (db.outbox.seq < id ∧ ∃ endpointId eventType payloadJson readyAt,
      row = ⟨endpointId, eventType, payloadJson, 0, readyAt, none, none, none⟩) := by
  have hchange := exec_change cfg now db (.request r)
  generalize hop : Op.request r = op at hchange h
  generalize exec cfg now db op = result at hchange h
  cases hchange with
  | account _ hqueue | timeline _ _ _ _ _ hqueue => exact .inl (hqueue.outbox ▸ h)
  | endpointAdded _ _ houtbox => exact .inl (houtbox ▸ h)
  | status projectId issueId userId status i hi hne hdb =>
    subst hdb
    exact .inl h
  | endpointRemoved endpointId _ houtbox =>
    rw [houtbox, Table.get?_delete, Option.filter_eq_some_iff] at h
    exact .inl h.1
  | delivery => cases hop
  | accepted req body storageId p =>
    dsimp only [Ingest.accepted] at h
    split at h
    · next kind _ =>
      rcases db.outbox.get?_insertAll_cases _ h with hold | ⟨hnew, hmem⟩
      · exact .inl hold
      · obtain ⟨endpointId, -, rfl⟩ := List.mem_map.mp hmem
        exact .inr ⟨hnew, endpointId, kind.asStr, _, now, rfl⟩
    · exact .inl h

/-- The first user, one project, one ingestion key and one endpoint. -/
def Sample.installation : List Request := [
  .bootstrap (.ok "$argon2id$") ⟨"ada@example.org", "Ada", "correct horse"⟩,
  .createProject ⟨1, "csrf"⟩ ⟨"csrf", "Demo", some "demo", none⟩,
  .createIngestKey 1 1 "ci" "zbk_0123456789",
  .createWebhook "demo" ⟨1, "hook", .webhook, "https://hooks.example/in", some "0123456789abcdef", 0,
    true, 1⟩]

end Zbierak.Server
