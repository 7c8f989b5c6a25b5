import Zbierak.AuditTrail
import Zbierak.CsrfGate
import Zbierak.Isolation
import Zbierak.Lib.Digits

/-!
# What the audit log claims

A row about a revocation or a removal says that an object is gone. Revoking an
ingest key and deleting a webhook look at the number of rows they changed before
they record; the other three handlers record whatever they found.
-/
namespace Zbierak.AuditSoundness

open AuditTrail (keyRevoked revokeKeyWrite revokeIngestKey_eq webhookDeleted deleteWebhookWrite
  deleteWebhookTx_eq execAudited)
open UiForms (Handler Service)

/-- The actions that claim a revocation or a removal. -/
def removals : List String :=
  ["ingest_key.revoked", "api_token.revoked", "user.session_revoked", "webhook.deleted",
    "avatar.removed"]

def IsAdmin (db : Db) (projectId userId : Int) : Prop :=
  ∃ role, ProjectRole.admin ≤ role ∧ Auth.Member db projectId userId role

/-- The object with this id was there, the user may act on it, and it is revoked
or gone. An avatar goes by the id of its user. -/
inductive Justified (db db' : Db) (userId id : Int) : String → Prop
  | ingestKey {k k' : IngestKey} (found : db.ingestKeys.get? id = some k) (live : k.revokedAt = none)
      (admin : IsAdmin db k.projectId userId) (after : db'.ingestKeys.get? id = some k')
      (revoked : k'.revokedAt.isSome) : Justified db db' userId id "ingest_key.revoked"
  | apiToken {t t' : ApiToken} (found : db.apiTokens.get? id = some t) (live : t.revokedAt = none)
      (own : t.userId = userId) (after : db'.apiTokens.get? id = some t')
      (revoked : t'.revokedAt.isSome) : Justified db db' userId id "api_token.revoked"
  | session {s : SessionRow} (found : db.sessions.get? id = some s) (own : s.userId = userId)
      (gone : db'.sessions.get? id = none) : Justified db db' userId id "user.session_revoked"
  | webhook {e : Endpoint} (found : db.endpoints.get? id = some e)
      (admin : IsAdmin db e.projectId userId) (gone : db'.endpoints.get? id = none) :
      Justified db db' userId id "webhook.deleted"
  | avatar {a : UserAvatar} (found : a ∈ db.userAvatars) (own : a.userId = id)
      (editor : userId = id ∨ Settings.isInstanceOwner db userId = true)
      (gone : ∀ a ∈ db'.userAvatars, a.userId ≠ id) : Justified db db' userId id "avatar.removed"

/-- What a row that claims a removal must come with. -/
def SoundRow (db db' : Db) (row : AuditRow) : Prop :=
  row.action ∈ removals → ∃ userId id, row.userId = some userId ∧ row.targetId = some (toString id) ∧
    Justified db db' userId id row.action

/-- A form request of a browser, or an operation of the service that removes nothing. -/
inductive Op where
  | form (cookie : Option String) (input : Except AppError UiForms.Request)
  | other (op : Server.Op)

structure Label where
  now : Int
  fault : Option AppError
  op : Op

/-- The transactions that run as forms here; logins record other actions. -/
def runsAsForm : Server.Op → Bool
  | .request (.revokeIngestKey _ _ _ _) | .request (.deleteWebhook _ _ _ _)
  | .request (.account (.revokeApiToken _ _)) | .request (.account (.deleteAvatar _ _))
  | .request (.account (.revokeSession _ _)) => true
  | .request (.recordLogin row) => row.action ∈ removals
  | _ => false

def step (service : Service) (publicUrl : Option String) (db : Db) (label : Label) : Option Db :=
  match label.op with
  | .form cookie input => some (UiForms.serve service label.fault label.now cookie input db).2
  | .other op =>
    if runsAsForm op then none
    else AuditTrail.step ⟨service.env, publicUrl⟩ db ⟨label.now, label.fault, op⟩

/-- Every audit row that the step commits is true. -/
def Sound (service : Service) (publicUrl : Option String) (db : Db) (label : Label) : Prop :=
  ∀ db', step service publicUrl db label = some db' →
    ∀ row ∈ db'.auditLog.newer db.auditLog.seq, SoundRow db db' row

/-- A request that comes as far as its transaction names an object to remove. -/
def NamesTarget (db : Db) (session : Auth.Session) : UiForms.Request → Prop
  | .revokeApiToken tokenId form => session.csrfToken = form.csrfToken →
    ∃ t, db.apiTokens.get? tokenId = some t ∧ t.userId = session.userId ∧ t.revokedAt = none
  | .revokeSession userId sessionId form => session.csrfToken = form.csrfToken →
    userId = session.userId →
    ∃ s, db.sessions.get? sessionId = some s ∧ s.userId = session.userId
  | .deleteAvatar userId form => session.csrfToken = form.csrfToken →
    UiForms.requireProfileEditor db session userId = .ok userId →
    ∃ a ∈ db.userAvatars, a.userId = userId
  | _ => True

def TargetsThere (service : Service) (db : Db) (label : Label) : Prop :=
  ∀ cookie request session, label.op = .form cookie (.ok request) → label.fault = none →
    Settings.requireSession service.env db cookie label.now = .ok session →
    NamesTarget db session request

/-- The log grows by rows that claim no removal. -/
def Quiet (db db' : Db) : Prop :=
  ∃ rows, db'.auditLog = db.auditLog.insertAll rows ∧ ∀ row ∈ rows, row.action ∉ removals

theorem Quiet.of_same {db db' : Db} (h : db'.auditLog = db.auditLog) : Quiet db db' :=
  ⟨[], h, by simp⟩

theorem Quiet.of_insert {db db' : Db} {row : AuditRow} (h : db'.auditLog = db.auditLog.insert row)
    (hrow : row.action ∉ removals) : Quiet db db' :=
  ⟨[row], h, by simpa using hrow⟩

theorem insertAll_append {ρ : Type} (t : Table ρ) (rs rs' : List ρ) :
    t.insertAll (rs ++ rs') = (t.insertAll rs).insertAll rs' := by
  induction rs generalizing t with
  | nil => rfl
  | cons r rs ih => exact ih (t.insert r)

theorem Quiet.trans {db db' db'' : Db} (h : Quiet db db') (h' : Quiet db' db'') : Quiet db db'' := by
  obtain ⟨rows, hlog, hrows⟩ := h
  obtain ⟨rows', hlog', hrows'⟩ := h'
  refine ⟨rows ++ rows', by rw [hlog', hlog, insertAll_append], fun row hrow => ?_⟩
  rcases List.mem_append.mp hrow with hrow | hrow
  · exact hrows row hrow
  · exact hrows' row hrow

theorem Quiet.sound {db db' : Db} (h : Quiet db db') {row : AuditRow}
    (hrow : row ∈ db'.auditLog.newer db.auditLog.seq) : SoundRow db db' row := by
  obtain ⟨rows, hlog, hrows⟩ := h
  rw [hlog, Table.newer_insertAll] at hrow
  exact fun hremoval => absurd hremoval (hrows row hrow)

section QuietHandlers

/-- Whatever comes of the handler, its rows claim no removal. -/
def QuietHandler {α : Type} (x : Handler α) : Prop := ∀ db, Quiet db (x db).2

variable {α β : Type}

theorem QuietHandler.bind {x : Handler α} {f : α → Handler β} (hx : QuietHandler x)
    (hf : ∀ a, QuietHandler (f a)) : QuietHandler (x >>= f) := by
  intro db
  have hfirst := hx db
  rw [UiForms.bind_apply]
  generalize x db = result at hfirst
  obtain ⟨_ | a, db'⟩ := result
  · exact hfirst
  · exact hfirst.trans (hf a db')

theorem quiet_pure (a : α) : QuietHandler (pure a : Handler α) := fun _ => .of_same rfl

theorem quiet_lift (x : Except AppError α) : QuietHandler (liftM x : Handler α) := by
  intro db
  cases x <;> exact .of_same rfl

theorem quiet_get : QuietHandler (get : Handler Db) := fun _ => .of_same rfl

theorem quiet_throw (e : AppError) : QuietHandler (throw e : Handler α) := fun _ => .of_same rfl

theorem quiet_write {tx : Tx α} (h : ∀ db db' a, tx db = .ok (db', a) → Quiet db db') :
    QuietHandler (UiForms.write tx) :=
  fun db => commit_snd (Quiet db) (.of_same rfl) fun db' a => h db db' a

theorem quiet_audited {fault : Option AppError} {row : AuditRow} {write : Tx α}
    (hrow : row.action ∉ removals)
    (hwrite : ∀ db changed a, write db = .ok (changed, a) → changed.auditLog = db.auditLog) :
    QuietHandler (UiForms.write (audited fault row write)) :=
  quiet_write fun db db' a h => by
    obtain ⟨-, changed, hchanged, rfl⟩ := audited_ok h
    exact .of_insert (congrArg (Table.insert · row) (hwrite db changed a hchanged)) hrow

/-- A transaction that leaves the audit log. -/
def LogKept (tx : Tx α) : Prop := ∀ db db' a, tx db = .ok (db', a) → db'.auditLog = db.auditLog

theorem LogKept.quiet {tx : Tx α} (h : LogKept tx) : QuietHandler (UiForms.write tx) :=
  quiet_write fun db db' a htx => .of_same (h db db' a htx)

theorem quiet_onIssues {handler : Db → Except AppError IssueApi.Response × Db}
    (h : ∀ db, (handler db).2.auditLog = db.auditLog) : QuietHandler (UiForms.onIssues handler) :=
  fun db => .of_same (h db)

theorem log_checked {db : Db} {input : Except AppError α}
    {next : α → Except AppError IssueApi.Response × Db}
    (h : ∀ a, (next a).2.auditLog = db.auditLog) :
    (IssueApi.checked db input next).2.auditLog = db.auditLog :=
  Isolation.checked_snd (fun db' => db'.auditLog = db.auditLog) rfl fun a _ => h a

theorem LogKept.transact {tx : Tx α} (h : LogKept tx) (db : Db)
    (answer : Db → α → Except AppError IssueApi.Response) :
    (IssueApi.transact db tx answer).2.auditLog = db.auditLog :=
  Isolation.transact_snd (fun db' => db'.auditLog = db.auditLog) rfl (h db)

end QuietHandlers

section Issues

variable {projectId issueId userId now : Int}

theorem logKept_setIssueStatusTx (status : IssueStatus) :
    LogKept (Issues.setIssueStatusTx projectId issueId userId status now) := by
  intro db db' _ h
  obtain ⟨i, -, ⟨-, rfl⟩ | ⟨-, rfl⟩⟩ := Issues.setIssueStatusTx_ok h <;> rfl

theorem logKept_replaceIssueTags (tags : List String) :
    LogKept (Issues.replaceIssueTags projectId issueId userId tags now) := by
  intro db db' _ h
  obtain ⟨-, rfl | ⟨details, rfl⟩⟩ := Issues.replaceIssueTags_ok h <;> rfl

theorem logKept_insertCommentTx (body : String) :
    LogKept (Issues.insertCommentTx projectId userId issueId body now) := by
  intro db db' _ h
  obtain ⟨-, -, rfl⟩ := Issues.insertCommentTx_ok h
  rfl

theorem logKept_modifyCommentTx (commentId : Int) (change : Comment → Comment) (kind : ActivityKind) :
    LogKept (Issues.modifyCommentTx projectId userId issueId commentId change kind now) := by
  intro db db' _ h
  obtain ⟨-, -, rfl⟩ := Issues.modifyCommentTx_ok h
  rfl

theorem log_setIssueStatus (db : Db) (session : Auth.Session) (slug csrfToken : String)
    (status : IssueStatus) :
    (IssueApi.setIssueStatus now db session slug issueId csrfToken status).2.auditLog = db.auditLog :=
  log_checked fun _ => log_checked fun _ => (logKept_setIssueStatusTx status).transact db _

end Issues

/-- The five routes that record a removal. -/
def isRemoval : UiForms.Request → Bool
  | .revokeIngestKey _ _ _ | .deleteWebhook _ _ _ | .revokeApiToken _ _ | .deleteAvatar _ _
  | .revokeSession _ _ _ => true
  | _ => false

section Handlers

variable (service : Service) (fault : Option AppError) (now : Int) (session : Auth.Session)
  (cookie : Option String)

theorem quiet_userSettingsFlashResponse (targetId : Int) (message : String) :
    QuietHandler (UiForms.userSettingsFlashResponse service session targetId message) := by
  unfold UiForms.userSettingsFlashResponse
  refine quiet_get.bind fun db => ?_
  split
  · exact quiet_throw _
  · exact (quiet_lift _).bind fun _ => quiet_pure _

theorem quiet_uploadAvatar (userId : Int) (form : UiForms.UiMultipart) :
    QuietHandler (UiForms.uploadAvatar service fault now session userId form) := by
  refine (quiet_lift _).bind fun _ => quiet_get.bind fun db => (quiet_lift _).bind fun targetId =>
    (quiet_lift _).bind fun png => ?_
  refine (quiet_audited (by simp [removals]) fun db changed _ h => ?_).bind fun _ =>
    quiet_userSettingsFlashResponse service session targetId _
  cases h
  rfl

/-- Every other route is quiet. -/
theorem quiet_handle (request : UiForms.Request) (hrequest : isRemoval request = false) :
    QuietHandler (UiForms.handle service fault now session cookie request) := by
  cases request with
  | logout form =>
    refine (quiet_lift _).bind fun _ => QuietHandler.bind (fun db => .of_same ?_) fun _ => quiet_pure _
    change (Settings.destroySession service.env cookie db).auditLog = _
    unfold Settings.destroySession
    split <;> rfl
  | createProject form =>
    refine (quiet_lift _).bind fun _ => (quiet_lift _).bind fun checked => ?_
    refine (LogKept.quiet fun db db' a h => ?_).bind fun _ => quiet_pure _
    unfold Projects.createProjectTx at h
    split at h
    · cases h
    · split at h
      · cases h
      · cases h
        rfl
  | createMember slug form argon2 =>
    refine quiet_get.bind fun db => (quiet_lift _).bind fun _ => (quiet_lift _).bind fun member => ?_
    refine (LogKept.quiet fun db db' _ h => ?_).bind fun _ => quiet_pure _
    obtain ⟨-, -, users, -, rfl⟩ := Projects.writeMember_ok h
    rfl
  | createIngestKey slug form random =>
    refine (quiet_lift _).bind fun _ => quiet_get.bind fun db => (quiet_lift _).bind fun projectId => ?_
    refine (LogKept.quiet fun db db' _ h => ?_).bind fun _ => quiet_get.bind fun _ =>
      (quiet_lift _).bind fun _ => quiet_pure _
    obtain ⟨k, -, rfl⟩ := Projects.createIngestKey_ok h
    rfl
  | changeIssueStatus slug issueId form =>
    refine quiet_onIssues fun db => ?_
    unfold IssueApi.changeIssueStatus
    split
    · rfl
    · exact log_setIssueStatus db session slug _ _
  | addComment slug issueId form =>
    exact quiet_onIssues fun db => log_checked fun _ => log_checked fun body => log_checked fun _ =>
      (logKept_insertCommentTx body).transact db _
  | editCommentForm slug issueId commentId form =>
    exact quiet_onIssues fun db => log_checked fun _ => log_checked fun body => log_checked fun _ =>
      (logKept_modifyCommentTx commentId _ _).transact db _
  | deleteCommentForm slug issueId commentId form =>
    exact quiet_onIssues fun db => log_checked fun _ => log_checked fun _ =>
      (logKept_modifyCommentTx commentId _ _).transact db _
  | resolveIssue slug issueId form | reopenIssue slug issueId form =>
    exact quiet_onIssues fun db => log_setIssueStatus db session slug _ _
  | updateIssueTagsForm slug issueId form =>
    exact quiet_onIssues fun db => log_checked fun _ => log_checked fun _ => log_checked fun tags =>
      (logKept_replaceIssueTags tags).transact db _
  | updateProfile userId form =>
    refine (quiet_lift _).bind fun _ => quiet_get.bind fun db => (quiet_lift _).bind fun targetId =>
      (quiet_lift _).bind fun name => ?_
    refine (quiet_audited (by simp [removals]) fun db changed _ h => ?_).bind fun _ =>
      quiet_userSettingsFlashResponse service session targetId _
    cases h
    rfl
  | uploadAvatar userId body =>
    exact (quiet_lift _).bind fun form => quiet_uploadAvatar service fault now session userId form
  | changePassword userId form argon2 =>
    refine (quiet_lift _).bind fun _ => quiet_get.bind fun db => (quiet_lift _).bind fun newHash => ?_
    refine (quiet_audited (by simp [removals]) fun db changed _ h => ?_).bind fun _ => quiet_pure _
    cases h
    rfl
  | revokeOtherSessions userId form =>
    refine (quiet_lift _).bind fun _ => ?_
    split
    · exact quiet_throw _
    · refine (quiet_audited (by simp [removals]) fun db changed _ h => ?_).bind fun _ => quiet_pure _
      cases h
      rfl
  | createWebhook slug form =>
    refine (quiet_lift _).bind fun _ => quiet_get.bind fun db => (quiet_lift _).bind fun projectId =>
      (quiet_lift _).bind fun endpoint => ?_
    refine QuietHandler.bind (quiet_write fun db db' _ h => ?_) fun _ => quiet_pure _
    cases h
    exact .of_insert rfl (by simp [removals])
  | createApiToken form random =>
    refine (quiet_lift _).bind fun _ => (quiet_lift _).bind fun name => ?_
    refine (quiet_audited (by simp [removals]) fun db changed _ h => ?_).bind fun _ => quiet_get.bind fun _ =>
      (quiet_lift _).bind fun _ => quiet_pure _
    dsimp only at h
    split at h
    · cases h
    · cases h
      rfl
  | revokeIngestKey | deleteWebhook | revokeApiToken | deleteAvatar | revokeSession => cases hrequest

end Handlers

section Removals

variable {db db' : Db} {userId id : Int} {action : String}

theorem Justified.apiToken_found (h : Justified db db' userId id action)
    (haction : action = "api_token.revoked") :
    ∃ t, db.apiTokens.get? id = some t ∧ t.userId = userId ∧ t.revokedAt = none := by
  cases h with
  | apiToken found live own => exact ⟨_, found, own, live⟩
  | ingestKey | session | webhook | avatar => simp at haction

theorem Justified.session_found (h : Justified db db' userId id action)
    (haction : action = "user.session_revoked") :
    ∃ s, db.sessions.get? id = some s ∧ s.userId = userId := by
  cases h with
  | session found own => exact ⟨_, found, own⟩
  | ingestKey | apiToken | webhook | avatar => simp at haction

theorem Justified.avatar_found (h : Justified db db' userId id action)
    (haction : action = "avatar.removed") : ∃ a ∈ db.userAvatars, a.userId = id := by
  cases h with
  | avatar found own => exact ⟨_, found, own⟩
  | ingestKey | apiToken | session | webhook => simp at haction

/-- The rows added between the two stores are true. -/
def SoundLog (db db' : Db) : Prop := ∀ row ∈ db'.auditLog.newer db.auditLog.seq, SoundRow db db' row

theorem SoundLog.refl (db : Db) : SoundLog db db := by
  simp [SoundLog]

/-- An audited write is sound when its row is true of every store it commits. -/
theorem soundLog_audited {fault : Option AppError} {row : AuditRow} {write : Tx Unit}
    (hlog : ∀ changed, write db = .ok (changed, ()) → changed.auditLog = db.auditLog) :
    SoundLog db (commit (audited fault row write) db).2 ↔
      (fault = none → ∀ changed, write db = .ok (changed, ()) →
        SoundRow db { changed with auditLog := changed.auditLog.insert row } row) := by
  cases hwrite : write db with
  | error e =>
    have hcommit : commit (audited fault row write) db = (.error e, db) :=
      commit_error (by simp only [audited, hwrite, bind, Except.bind])
    rw [hcommit]
    exact iff_of_true (.refl db) fun _ _ h => nomatch h
  | ok written =>
    obtain ⟨changed, u⟩ := written
    cases fault with
    | some error =>
      have hcommit : commit (audited (some error) row write) db = (.error error, db) :=
        commit_error (by simp only [audited, hwrite, bind, Except.bind])
      rw [hcommit]
      exact iff_of_true (.refl db) nofun
    | none =>
      have hcommit : commit (audited none row write) db =
          (.ok (), { changed with auditLog := changed.auditLog.insert row }) :=
        commit_ok (by simp only [audited, hwrite, bind, Except.bind]; rfl)
      have hnewer : (changed.auditLog.insert row).newer db.auditLog.seq = [row] := by
        rw [hlog changed hwrite]
        exact db.auditLog.newer_insertAll [row]
      rw [hcommit]
      simp only [SoundLog, hnewer, List.mem_singleton, forall_eq, true_imp_iff, Except.ok.injEq,
        Prod.mk.injEq, and_true, forall_eq']

variable {α : Type}

theorem bind_lift_ok {β : Type} {x : Except AppError α} {a : α} (h : x = .ok a)
    (f : α → Handler β) (db : Db) : ((liftM x : Handler α) >>= f) db = f a db := by
  rw [h, UiForms.bind_apply]
  rfl

theorem bind_lift_error {β : Type} {x : Except AppError α} {e : AppError} (h : x = .error e)
    (f : α → Handler β) (db : Db) : ((liftM x : Handler α) >>= f) db = (.error e, db) := by
  rw [h, UiForms.bind_apply]
  rfl

/-- What follows the transaction writes nothing. -/
theorem bind_write_snd {β : Type} (tx : Tx α) {f : α → Handler β} (hf : ∀ a db, (f a db).2 = db)
    (db : Db) : ((UiForms.write tx >>= f) db).2 = (commit tx db).2 := by
  rw [UiForms.bind_apply, UiForms.write]
  rcases commit tx db with ⟨e | a, db'⟩
  · rfl
  · exact hf a db'

end Removals

section Routes

variable (service : Service) (fault : Option AppError) (now : Int) (session : Auth.Session) (db : Db)

theorem checkCsrf_eq (session : Auth.Session) (supplied : String) :
    Auth.checkCsrf session supplied = .ok () ∧ session.csrfToken = supplied ∨
      Auth.checkCsrf session supplied = .error .forbidden ∧ session.csrfToken ≠ supplied := by
  by_cases h : session.csrfToken = supplied
  · exact .inl ⟨if_pos h, h⟩
  · exact .inr ⟨CsrfGate.checkCsrf_wrong h, h⟩

theorem sound_revokeApiToken (tokenId : Int) (form : Settings.CsrfForm) :
    SoundLog db (UiForms.revokeApiToken fault now session tokenId form db).2 ↔
      (fault = none → NamesTarget db session (.revokeApiToken tokenId form)) := by
  rcases checkCsrf_eq session form.csrfToken with ⟨hcheck, hcsrf⟩ | ⟨hcheck, hcsrf⟩
  · rw [UiForms.revokeApiToken, bind_lift_ok hcheck, bind_write_snd _ fun _ _ => rfl,
      Settings.revokeApiTokenTx, soundLog_audited fun changed h => by cases h; rfl]
    refine imp_congr_right fun _ => ?_
    constructor
    · intro h _
      obtain ⟨userId, id, huser, hid, hjust⟩ := h _ rfl (by simp [removals])
      obtain rfl := Option.some.inj huser
      obtain rfl := Digits.toString_inj (Option.some.inj hid)
      exact hjust.apiToken_found rfl
    · rintro h changed ⟨⟩ -
      obtain ⟨t, found, own, live⟩ := h hcsrf
      have hafter : (db.apiTokens.update
          (fun id t => id = tokenId ∧ t.userId = session.userId ∧ t.revokedAt = none)
          fun t => { t with revokedAt := some now }).get? tokenId =
            some { t with revokedAt := some now } := by
        rw [Table.get?_update, found]
        simp [own, live]
      exact ⟨session.userId, tokenId, rfl, rfl, .apiToken found live own hafter rfl⟩
  · rw [UiForms.revokeApiToken, bind_lift_error hcheck]
    exact iff_of_true (.refl db) fun _ h => absurd h hcsrf

theorem sound_revokeSession (userId sessionId : Int) (form : Settings.CsrfForm) :
    SoundLog db (UiForms.revokeSession fault session userId sessionId form db).2 ↔
      (fault = none → NamesTarget db session (.revokeSession userId sessionId form)) := by
  rcases checkCsrf_eq session form.csrfToken with ⟨hcheck, hcsrf⟩ | ⟨hcheck, hcsrf⟩
  · rw [UiForms.revokeSession, bind_lift_ok hcheck]
    by_cases huser : userId = session.userId
    · subst huser
      simp only [ne_eq, not_true_eq_false, if_false]
      rw [bind_write_snd _ fun _ _ => rfl, Settings.revokeSessionTx,
        soundLog_audited fun changed h => by cases h; rfl]
      refine imp_congr_right fun _ => ?_
      constructor
      · intro h _ _
        obtain ⟨userId, id, huser, hid, hjust⟩ := h _ rfl (by simp [removals])
        obtain rfl := Option.some.inj huser
        obtain rfl := Digits.toString_inj (Option.some.inj hid)
        exact hjust.session_found rfl
      · rintro h changed ⟨⟩ -
        obtain ⟨s, found, own⟩ := h hcsrf rfl
        refine ⟨session.userId, sessionId, rfl, rfl, .session found own ?_⟩
        rw [Table.get?_delete, found]
        simp [Option.filter, own]
    · rw [if_pos huser]
      exact iff_of_true (.refl db) fun _ _ h => absurd h huser
  · rw [UiForms.revokeSession, bind_lift_error hcheck]
    exact iff_of_true (.refl db) fun _ h => absurd h hcsrf

theorem requireProfileEditor_ok {session : Auth.Session} {userId targetId : Int}
    (h : UiForms.requireProfileEditor db session userId = .ok targetId) :
    targetId = userId ∧
      (session.userId = userId ∨ Settings.isInstanceOwner db session.userId = true) := by
  unfold UiForms.requireProfileEditor at h
  split at h
  · cases h
  · split at h
    · next heditor =>
      cases h
      exact ⟨rfl, heditor⟩
    · cases h

theorem userSettingsFlashResponse_snd (targetId : Int) (message : String) :
    (UiForms.userSettingsFlashResponse service session targetId message db).2 = db := by
  rw [UiForms.userSettingsFlashResponse, UiForms.bind_get]
  split
  · rfl
  · cases service.userSettingsPage db session targetId message <;> rfl

theorem sound_deleteAvatar (userId : Int) (form : Settings.CsrfForm) :
    SoundLog db (UiForms.deleteAvatar service fault session userId form db).2 ↔
      (fault = none → NamesTarget db session (.deleteAvatar userId form)) := by
  rcases checkCsrf_eq session form.csrfToken with ⟨hcheck, hcsrf⟩ | ⟨hcheck, hcsrf⟩
  · rw [UiForms.deleteAvatar, bind_lift_ok hcheck, UiForms.bind_get]
    cases heditor : UiForms.requireProfileEditor db session userId with
    | error e =>
      rw [bind_lift_error rfl]
      exact iff_of_true (.refl db) fun _ _ h => nomatch heditor.symm.trans h
    | ok targetId =>
      obtain ⟨rfl, hentitled⟩ := requireProfileEditor_ok db heditor
      rw [bind_lift_ok rfl, bind_write_snd _ fun _ db =>
          userSettingsFlashResponse_snd service session db targetId _, Settings.deleteAvatarTx,
        soundLog_audited fun changed h => by cases h; rfl]
      refine imp_congr_right fun _ => ?_
      constructor
      · intro h _ _
        obtain ⟨_, id, -, hid, hjust⟩ := h _ rfl (by simp [removals])
        obtain rfl := Digits.toString_inj (Option.some.inj hid)
        exact hjust.avatar_found rfl
      · rintro h changed ⟨⟩ -
        obtain ⟨a, found, own⟩ := h hcsrf heditor
        exact ⟨session.userId, targetId, rfl, rfl, .avatar found own hentitled fun a ha => by
          simpa using (List.mem_filter.mp ha).2⟩
  · rw [UiForms.deleteAvatar, bind_lift_error hcheck]
    exact iff_of_true (.refl db) fun _ h => absurd h hcsrf

/-- The key was found live before the row is written. -/
theorem sound_revokeIngestKey (slug : String) (keyId : Int) (form : Settings.CsrfForm) :
    SoundLog db (UiForms.revokeIngestKey now session slug keyId form db).2 := by
  rcases checkCsrf_eq session form.csrfToken with ⟨hcheck, -⟩ | ⟨hcheck, -⟩
  · rw [UiForms.revokeIngestKey, bind_lift_ok hcheck, UiForms.bind_get]
    cases hrole : Auth.requireProjectRole db session.userId slug .admin with
    | error e =>
      rw [bind_lift_error rfl]
      exact .refl db
    | ok projectId =>
      rw [bind_lift_ok rfl, bind_write_snd _ fun _ _ => rfl, revokeIngestKey_eq, soundLog_audited]
      · rintro - changed hwrite -
        unfold revokeKeyWrite at hwrite
        dsimp only at hwrite
        split at hwrite
        · cases hwrite
        · next hsome =>
          cases hwrite
          obtain ⟨⟨id, k⟩, hk⟩ := List.exists_mem_of_ne_nil _ (by simpa using hsome)
          obtain ⟨found, hlive⟩ := (db.ingestKeys.mem_select _).mp hk
          obtain ⟨rfl, hproject, live⟩ : id = keyId ∧ k.projectId = projectId ∧
              k.revokedAt = none := by simpa using hlive
          obtain ⟨-, hadmin⟩ := Auth.requireProjectRole_ok hrole
          have hafter : (db.ingestKeys.update
              (fun key k => key = id ∧ k.projectId = projectId ∧ k.revokedAt = none)
              fun k => { k with revokedAt := some now }).get? id =
                some { k with revokedAt := some now } := by
            simp [found, hproject, live]
          exact ⟨session.userId, id, rfl, rfl,
            .ingestKey found live (hproject ▸ hadmin) hafter rfl⟩
      · intro changed hwrite
        unfold revokeKeyWrite at hwrite
        dsimp only at hwrite
        split at hwrite
        · cases hwrite
        · cases hwrite
          rfl
  · rw [UiForms.revokeIngestKey, bind_lift_error hcheck]
    exact .refl db

theorem sound_deleteWebhook (slug : String) (webhookId : Int) (form : Settings.CsrfForm) :
    SoundLog db (UiForms.deleteWebhook session slug webhookId form db).2 := by
  rcases checkCsrf_eq session form.csrfToken with ⟨hcheck, -⟩ | ⟨hcheck, -⟩
  · rw [UiForms.deleteWebhook, bind_lift_ok hcheck, UiForms.bind_get]
    cases hrole : Auth.requireProjectRole db session.userId slug .admin with
    | error e =>
      rw [bind_lift_error rfl]
      exact .refl db
    | ok projectId =>
      rw [bind_lift_ok rfl, bind_write_snd _ fun _ _ => rfl, deleteWebhookTx_eq, soundLog_audited]
      · rintro - changed hwrite -
        unfold deleteWebhookWrite at hwrite
        split at hwrite
        · cases hwrite
        · next e he =>
          cases hwrite
          obtain ⟨found, hproject⟩ := Option.filter_eq_some_iff.mp he
          obtain rfl : e.projectId = projectId := by simpa using hproject
          obtain ⟨-, hadmin⟩ := Auth.requireProjectRole_ok hrole
          refine ⟨session.userId, webhookId, rfl, rfl, .webhook found hadmin ?_⟩
          simp [found, Option.filter]
      · intro changed hwrite
        unfold deleteWebhookWrite at hwrite
        split at hwrite
        · cases hwrite
        · cases hwrite
          rfl
  · rw [UiForms.deleteWebhook, bind_lift_error hcheck]
    exact .refl db

/-- The form requests that come to a handler are those of a live session. -/
theorem serve_snd (cookie : Option String) (input : Except AppError UiForms.Request) :
    (UiForms.serve service fault now cookie input db).2 =
      match Settings.requireSession service.env db cookie now, input with
      | .ok session, .ok request =>
        (UiForms.handle service fault now session cookie request db).2
      | _, _ => db := by
  rw [UiForms.serve, UiForms.bind_apply, UiForms.uiSession, UiForms.bind_get]
  cases Settings.requireSession service.env db cookie now with
  | error e => rfl
  | ok session =>
    cases input with
    | error e => exact congrArg Prod.snd (bind_lift_error rfl _ db)
    | ok request => exact congrArg Prod.snd (bind_lift_ok rfl _ db)

theorem sound_handle (cookie : Option String) (request : UiForms.Request) :
    SoundLog db (UiForms.handle service fault now session cookie request db).2 ↔
      (fault = none → NamesTarget db session request) := by
  cases hrequest : isRemoval request with
  | false =>
    have hquiet := quiet_handle service fault now session cookie request hrequest db
    refine iff_of_true (fun row hrow => hquiet.sound hrow) fun _ => ?_
    cases request <;> first | exact trivial | cases hrequest
  | true =>
    cases request with
    | revokeApiToken tokenId form => exact sound_revokeApiToken fault now session db tokenId form
    | revokeSession userId sessionId form => exact sound_revokeSession fault session db userId sessionId form
    | deleteAvatar userId form => exact sound_deleteAvatar service fault session db userId form
    | revokeIngestKey slug keyId form =>
      exact iff_of_true (sound_revokeIngestKey now session db slug keyId form) fun _ => trivial
    | deleteWebhook slug webhookId form =>
      exact iff_of_true (sound_deleteWebhook session db slug webhookId form) fun _ => trivial
    | _ => cases hrequest

end Routes

theorem quiet_account (env : Crates) (fault : Option AppError) (now : Int)
    (request : Settings.Request) (hop : runsAsForm (.request (.account request)) = false) :
    QuietHandler (UiForms.write (Settings.exec env fault now request)) := by
  cases request with
  | logout cookie =>
    refine LogKept.quiet fun db db' _ h => ?_
    cases h
    unfold Settings.destroySession
    split <;> rfl
  | useApiToken bearer =>
    refine LogKept.quiet fun db db' _ h => ?_
    simp only [Settings.exec, Settings.apiTokenUser] at h
    split at h
    · cases h
    · split at h
      · cases h
      · cases h
        rfl
  | createApiToken userId name token =>
    refine quiet_audited (by simp [removals]) fun db changed _ h => ?_
    dsimp only at h
    split at h
    · cases h
    · cases h
      rfl
  | changePassword | updateProfile | uploadAvatar | revokeOtherSessions =>
    refine quiet_audited (by simp [removals]) fun db changed _ h => ?_
    cases h
    rfl
  | revokeApiToken | deleteAvatar | revokeSession => cases hop

/-- The operations that are not forms record no removal. -/
theorem quiet_other (cfg : Server.Setup) (fault : Option AppError) (now : Int) (db : Db)
    {op : Server.Op} (hop : runsAsForm op = false) {db' : Db}
    (hstep : AuditTrail.step cfg db ⟨now, fault, op⟩ = some db') : Quiet db db' := by
  have hframe := Server.exec_frame cfg now db op
  cases op with
  | worker w =>
    obtain rfl := Option.some.inj hstep
    exact .of_same (hframe .auditLog rfl)
  | request request =>
    obtain rfl := Option.some.inj hstep
    cases request with
    | revokeIngestKey | deleteWebhook => cases hop
    | createWebhook slug endpoint =>
      refine @quiet_audited _ fault (AuditTrail.webhookCreated slug endpoint) _ ?_ ?_ db
      · simp [AuditTrail.webhookCreated, removals]
      · intro db changed _ h
        cases h
        rfl
    | recordLogin row =>
      cases fault with
      | some error => exact .of_same rfl
      | none => exact .of_insert rfl (by simpa [runsAsForm] using hop)
    | account request => exact quiet_account cfg.env fault now request hop db
    | _ => exact .of_same (hframe .auditLog rfl)

/-- A step is sound exactly when its form, if it comes as far as its transaction,
names an object to remove. -/
theorem sound_iff (service : Service) (publicUrl : Option String) (db : Db) (label : Label) :
    Sound service publicUrl db label ↔ TargetsThere service db label := by
  obtain ⟨now, fault, op⟩ := label
  cases op with
  | other op =>
    refine iff_of_true (fun db' hstep row hrow => ?_) fun _ _ _ h => nomatch h
    unfold step at hstep
    dsimp only at hstep
    split at hstep
    · cases hstep
    · next hop =>
      exact (quiet_other _ fault now db (by simpa using hop) hstep).sound hrow
  | form cookie input =>
    have hstep : Sound service publicUrl db ⟨now, fault, .form cookie input⟩ ↔
        SoundLog db (UiForms.serve service fault now cookie input db).2 := by
      constructor
      · exact fun h => h _ rfl
      · rintro h db' ⟨⟩
        exact h
    rw [hstep, serve_snd]
    unfold TargetsThere
    cases hsession : Settings.requireSession service.env db cookie now with
    | error e =>
      refine iff_of_true (.refl db) ?_
      rintro _ _ session ⟨⟩ - h
      exact nomatch hsession.symm.trans h
    | ok session =>
      cases input with
      | error e => exact iff_of_true (.refl db) fun _ _ _ h => nomatch h
      | ok request =>
        rw [sound_handle]
        constructor
        · rintro h _ _ _ ⟨⟩ hfault hother
          obtain rfl := Except.ok.inj (hsession.symm.trans hother)
          exact h hfault
        · exact fun h hfault => h cookie request session rfl hfault hsession

/-- In every run, from any store, every row about a revocation or a removal that
is committed is true, if and only if no token, session or avatar is removed that
is not there, not live or not the user's. Ingest keys and webhooks need no
condition. -/
theorem audit_sound (service : Service) (publicUrl : Option String) (labels : List Label) (db : Db) :
    Runs.Along (step service publicUrl) (Sound service publicUrl) labels db ↔
      Runs.Along (step service publicUrl) (TargetsThere service) labels db :=
  Runs.along_congr (sound_iff service publicUrl) labels db

/-- A user without API tokens revokes number seven. -/
def Sample.revoke : Label :=
  ⟨0, none, .form (some "cookie") (.ok (.revokeApiToken 7 ⟨"csrf"⟩))⟩

/-- The log says that a token was revoked that never existed. -/
theorem missing_token_is_recorded :
    ∃ db', step CsrfGate.Sample.service none CsrfGate.Sample.signedIn Sample.revoke = some db' ∧
      CsrfGate.Sample.signedIn.apiTokens.get? 7 = none ∧
      (db'.auditLog.newer CsrfGate.Sample.signedIn.auditLog.seq).map
        (fun row => (row.action, row.targetId)) = [("api_token.revoked", some "7")] ∧
      ¬ Sound CsrfGate.Sample.service none CsrfGate.Sample.signedIn Sample.revoke := by
  refine ⟨_, rfl, rfl, by decide +kernel, fun hsound => ?_⟩
  have hsession : Settings.requireSession CsrfGate.Sample.service.env CsrfGate.Sample.signedIn
      (some "cookie") 0 = .ok ⟨1, "csrf"⟩ := by decide +kernel
  have htarget := (sound_iff _ none _ _).mp hsound
  obtain ⟨t, hfound, -⟩ := htarget (some "cookie") _ _ rfl rfl hsession rfl
  cases hfound

end Zbierak.AuditSoundness
