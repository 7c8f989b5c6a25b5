import Zbierak.Ownership
import Zbierak.Server

/-!
# The audit trail

A privileged mutation is to leave one row in the audit log that names its acting
user, committed with the mutation or not at all. The insert of that row can
fail, so a transaction runs under a `fault`. Creating a project and setting the
role of a member are the two requests that record nothing.
-/
namespace Zbierak.AuditTrail

open Server (Setup Request Reply Op)

def revokeKeyWrite (projectId keyId now : Int) : Tx Unit := fun db =>
  let live := fun id (k : IngestKey) =>
    decide (id = keyId ∧ k.projectId = projectId ∧ k.revokedAt = none)
  if (db.ingestKeys.select live).isEmpty then .error .notFound
  else .ok ({ db with
      ingestKeys := db.ingestKeys.update live fun k => { k with revokedAt := some now } }, ())

def keyRevoked (userId keyId : Int) (slug : String) : AuditRow :=
  ⟨some userId, "ingest_key.revoked", some "ingest_key", some (toString keyId),
    .object [("project", .string slug)]⟩

def createWebhookWrite (endpoint : Endpoint) : Tx Unit := fun db =>
  .ok ({ db with endpoints := db.endpoints.insert endpoint }, ())

def webhookCreated (slug : String) (endpoint : Endpoint) : AuditRow :=
  let kind := match endpoint.kind with
    | .webhook => "webhook"
    | .discord => "discord"
  ⟨some endpoint.createdBy, "webhook.created", some "notification_endpoint", none,
    .object [("kind", .string kind), ("project", .string slug)]⟩

def deleteWebhookWrite (projectId webhookId : Int) : Tx Unit := fun db =>
  match (db.endpoints.get? webhookId).filter fun e => e.projectId = projectId with
  | none => .error .notFound
  | some _ =>
    .ok ({ db with
      endpoints := db.endpoints.delete fun id _ => id = webhookId
      outbox := db.outbox.delete fun _ row => row.endpointId = webhookId }, ())

def webhookDeleted (userId webhookId : Int) (slug : String) : AuditRow :=
  ⟨some userId, "webhook.deleted", some "notification_endpoint", some (toString webhookId),
    .object [("project", .string slug)]⟩

theorem revokeIngestKey_eq (projectId userId keyId : Int) (slug : String) (now : Int) :
    Projects.revokeIngestKey projectId userId keyId slug now =
      audited none (keyRevoked userId keyId slug) (revokeKeyWrite projectId keyId now) := by
  funext db
  unfold Projects.revokeIngestKey audited revokeKeyWrite
  dsimp only
  split <;> rfl

theorem createWebhookTx_eq (slug : String) (endpoint : Endpoint) :
    Webhooks.createWebhookTx slug endpoint =
      audited none (webhookCreated slug endpoint) (createWebhookWrite endpoint) := rfl

theorem deleteWebhookTx_eq (projectId userId webhookId : Int) (slug : String) :
    Webhooks.deleteWebhookTx projectId userId webhookId slug =
      audited none (webhookDeleted userId webhookId slug)
        (deleteWebhookWrite projectId webhookId) := by
  funext db
  unfold Webhooks.deleteWebhookTx audited deleteWebhookWrite
  cases (db.endpoints.get? webhookId).filter fun e => e.projectId = projectId <;> rfl

/-- A request whose audit insert, where it makes one, fails with `fault`. -/
def execAudited (cfg : Setup) (fault : Option AppError) (now : Int) (db : Db) :
    Request → Except AppError Reply × Db
  | .revokeIngestKey projectId userId keyId slug =>
    Server.silent (commit (audited fault (keyRevoked userId keyId slug)
      (revokeKeyWrite projectId keyId now)) db)
  | .createWebhook slug endpoint =>
    Server.silent (commit (audited fault (webhookCreated slug endpoint)
      (createWebhookWrite endpoint)) db)
  | .deleteWebhook projectId userId webhookId slug =>
    Server.silent (commit (audited fault (webhookDeleted userId webhookId slug)
      (deleteWebhookWrite projectId webhookId)) db)
  | .recordLogin row =>
    match fault with
    | some error => (.error error, db)
    | none => Server.execRequest cfg now db (.recordLogin row)
  | .account request => Server.silent (commit (Settings.exec cfg.env fault now request) db)
  | request => Server.execRequest cfg now db request

/-- Without a fault this is the service. -/
theorem execAudited_none (cfg : Setup) (now : Int) (db : Db) (request : Request) :
    execAudited cfg none now db request = Server.execRequest cfg now db request := by
  cases request with
  | revokeIngestKey => simp only [execAudited, Server.execRequest, revokeIngestKey_eq]
  | createWebhook => simp only [execAudited, Server.execRequest, createWebhookTx_eq]
  | deleteWebhook => simp only [execAudited, Server.execRequest, deleteWebhookTx_eq]
  | _ => rfl

/-- The user on whose behalf a request acts. -/
def actor : Request → Option Int
  | .setIssueStatus _ _ userId _ | .replaceIssueTags _ _ userId _ | .insertComment _ userId _ _
  | .updateComment _ userId _ _ _ | .deleteComment _ userId _ _ | .createIngestKey _ userId _ _
  | .revokeIngestKey _ userId _ _ | .deleteWebhook _ userId _ _ => some userId
  | .createProject session _ => some session.userId
  | .writeMember request _ => some request.actorId
  | .createWebhook _ endpoint => some endpoint.createdBy
  | .account request => match request with
    | .createApiToken userId _ _ | .revokeApiToken userId _ | .changePassword userId _ _ _
    | .updateProfile userId _ _ | .uploadAvatar userId _ _ | .deleteAvatar userId _
    | .revokeOtherSessions userId _ | .revokeSession userId _ => some userId
    | .logout _ | .useApiToken _ => none
  | .ingest _ _ _ | .bootstrap _ _ | .loginFailure _ | .loginSuccess _ | .createSession _ _ _ _
  | .recordLogin _ => none

/-- Signing out ends one's own session and revokes none. -/
def signsOut : Request → Bool
  | .account (.logout _) => true
  | _ => false

/-- Nothing that the audit log has to account for differs: roles, revocations of
keys, endpoints, API tokens, passwords and display names, sessions, avatars. -/
structure Untouched (request : Request) (db db' : Db) : Prop where
  roles : ∀ projectId userId,
    Auth.membershipRole db' projectId userId = Auth.membershipRole db projectId userId
  revocations : ∀ id k, db.ingestKeys.get? id = some k →
    ∃ k', db'.ingestKeys.get? id = some k' ∧ k'.revokedAt = k.revokedAt
  endpoints : db'.endpoints = db.endpoints
  apiTokens : ∀ id, (db'.apiTokens.get? id).map (fun t => { t with lastUsedAt := none }) =
    (db.apiTokens.get? id).map fun t => { t with lastUsedAt := none }
  users : ∀ id u, db.users.get? id = some u → ∃ u', db'.users.get? id = some u' ∧
    u'.passwordHash = u.passwordHash ∧ u'.displayName = u.displayName
  sessions : signsOut request = false →
    ∀ id s, db.sessions.get? id = some s → db'.sessions.get? id = some s
  userAvatars : db'.userAvatars = db.userAvatars

/-- Whatever becomes of the audit insert, a privileged mutation is committed
with exactly one row that names the acting user, or it is not committed. -/
def Complete (cfg : Setup) (now : Int) (db : Db) (request : Request) : Prop :=
  ∀ fault db', (execAudited cfg fault now db request).2 = db' → ¬ Untouched request db db' →
    fault = none ∧ ∃ row userId, actor request = some userId ∧ row.userId = some userId ∧
      db'.auditLog = db.auditLog.insert row

/-- A request that is going to give a role to somebody: a project that is going
to be created, or a member whose role is going to be set to a different one. -/
def Grants (db : Db) : Request → Prop
  | .createProject session form =>
    session.csrfToken = form.csrfToken ∧ ∃ name slug description,
      Projects.checkProject form = .ok (name, slug, description) ∧
      (db.projects.find? fun _ p => nocaseEq p.slug slug) = none ∧
      Auth.membershipRole db db.projects.nextId session.userId = none
  | .writeMember request argon2 =>
    let email := Text.toAsciiLowercase (Text.trim request.form.email)
    let target := Projects.targetUser db request.form
    ((db.users.find? fun _ u => nocaseEq u.email email).isSome = true ∨
        ∃ hash, Forms.hashPassword argon2 request.form.password = .ok hash) ∧
      (request.actor < .owner → ∀ existing,
        Auth.membershipRole db request.projectId target = some existing → existing < .admin) ∧
      (target = request.actorId → request.role = .owner) ∧
      Auth.membershipRole db request.projectId target ≠ some request.role
  | _ => False

theorem Untouched.refl (request : Request) (db : Db) : Untouched request db db :=
  ⟨fun _ _ => rfl, fun _ k hk => ⟨k, hk, rfl⟩, rfl, fun _ => rfl, fun _ u hu => ⟨u, hu, rfl, rfl⟩,
    fun _ _ _ hs => hs, rfl⟩

/-- An operation that names none of the tables the audit log accounts for. -/
theorem untouched_of_frame {request : Request} {op : Op} {db db' : Db}
    (hframe : Server.Frame op.writes db db')
    (hwrites : [Server.TableName.memberships, .ingestKeys, .endpoints, .apiTokens, .users, .sessions,
      .userAvatars].all (fun t => !op.writes.contains t) = true) : Untouched request db db' := by
  have hsame := hframe.same hwrites
  have hmemberships : db'.memberships = db.memberships := hsame .memberships (by simp)
  have hkeys : db'.ingestKeys = db.ingestKeys := hsame .ingestKeys (by simp)
  have htokens : db'.apiTokens = db.apiTokens := hsame .apiTokens (by simp)
  have husers : db'.users = db.users := hsame .users (by simp)
  have hsessions : db'.sessions = db.sessions := hsame .sessions (by simp)
  constructor
  · simp [Auth.membershipRole, hmemberships]
  · exact fun id k hk => ⟨k, hkeys ▸ hk, rfl⟩
  · exact hsame .endpoints (by simp)
  · simp [htokens]
  · exact fun id u hu => ⟨u, husers ▸ hu, rfl, rfl⟩
  · simp [hsessions]
  · exact hsame .userAvatars (by simp)

theorem complete_of_untouched {cfg : Setup} {now : Int} {db : Db} {request : Request}
    (h : ∀ fault, Untouched request db (execAudited cfg fault now db request).2) :
    Complete cfg now db request :=
  fun fault _ hdb hchange => absurd (hdb ▸ h fault) hchange

/-- A transaction whose every commit leaves what is to be audited. -/
theorem untouched_commit {request : Request} {db : Db} {α : Type} {tx : Tx α}
    (h : ∀ db' a, tx db = .ok (db', a) → Untouched request db db') :
    Untouched request db (Server.silent (commit tx db)).2 :=
  commit_snd (Untouched request db) (.refl request db) h

/-- A transaction whose every commit ends with the audit insert. -/
theorem complete_commit {cfg : Setup} {now : Int} {db : Db} {request : Request} {α : Type}
    (tx : Option AppError → Tx α) {userId : Int} (hactor : actor request = some userId)
    (hexec : ∀ fault, (execAudited cfg fault now db request).2 = (commit (tx fault) db).2)
    (h : ∀ fault db' a, tx fault db = .ok (db', a) → fault = none ∧ ∃ row,
      row.userId = some userId ∧ db'.auditLog = db.auditLog.insert row) :
    Complete cfg now db request := by
  intro fault db' hdb hchange
  rw [hexec fault] at hdb
  rcases commit_cases (tx fault) db with ⟨changed, a, htx, hc⟩ | ⟨e, -, hc⟩
  · rw [hc] at hdb
    obtain rfl : changed = db' := hdb
    obtain ⟨hfault, row, hrow, hlog⟩ := h fault changed a htx
    exact ⟨hfault, row, userId, hactor, hrow, hlog⟩
  · rw [hc] at hdb
    obtain rfl : db = db' := hdb
    exact absurd (.refl request db) hchange

theorem audited_log {α : Type} {fault : Option AppError} {row : AuditRow} {write : Tx α}
    {db db' : Db} {a : α} {userId : Int} (h : audited fault row write db = .ok (db', a))
    (hrow : row.userId = some userId)
    (hwrite : ∀ changed, write db = .ok (changed, a) → changed.auditLog = db.auditLog) :
    fault = none ∧ ∃ row, row.userId = some userId ∧ db'.auditLog = db.auditLog.insert row := by
  obtain ⟨hfault, changed, hchanged, rfl⟩ := audited_ok h
  exact ⟨hfault, row, hrow, by rw [hwrite changed hchanged]⟩

/-- A repeated event refreshes its key, an accepted one also issue data. -/
theorem untouched_ingest (cfg : Setup) (now : Int) (db : Db) (req : Ingest.IngestProject)
    (body : Bytes) (storageId : String) (request : Request) :
    Untouched request db (Server.execRequest cfg now db (.ingest req body storageId)).2 := by
  have hkeys : ∀ id k, db.ingestKeys.get? id = some k → ∃ k',
      (db.ingestKeys.update (fun id _ => id = req.keyId) fun k =>
        { k with lastUsedAt := some now }).get? id = some k' ∧ k'.revokedAt = k.revokedAt := by
    intro id k hk
    refine ⟨_, by rw [Table.get?_update, hk, Option.map_some], ?_⟩
    split <;> rfl
  have hfresh := Untouched.refl request db
  change Untouched request db (Server.exec cfg now db (.request (.ingest req body storageId))).2
  rcases Server.exec_ingest cfg now db req body storageId with
    ⟨e, h⟩ | ⟨response, -, h⟩ | ⟨p, -, -, -, -, h⟩
  · rw [h]
    exact hfresh
  · rw [h]
    exact { hfresh with revocations := hkeys }
  · rw [h]
    exact { hfresh with revocations := hkeys }

theorem complete_account (cfg : Setup) (now : Int) (db : Db) (request : Settings.Request) :
    Complete cfg now db (.account request) := by
  cases request with
  | logout cookie =>
    refine complete_of_untouched fun fault => untouched_commit fun db' a htx => ?_
    cases htx
    unfold Settings.destroySession
    split
    · next token => exact { Untouched.refl (.account (.logout (some token))) db with sessions := nofun }
    · exact .refl _ db
  | useApiToken bearer =>
    refine complete_of_untouched fun fault => untouched_commit fun db' a htx => ?_
    simp only [Settings.exec, Settings.apiTokenUser] at htx
    split at htx
    · cases htx
    · split at htx
      · cases htx
      · cases htx
        refine { Untouched.refl (.account (.useApiToken bearer)) db with apiTokens := fun id => ?_ }
        rw [Table.get?_update, Option.map_map]
        congr 1
        funext t
        simp only [Function.comp_apply]
        split <;> rfl
  | createApiToken userId name token =>
    refine complete_commit (fun fault => Settings.exec cfg.env fault now _) rfl (fun _ => rfl)
      fun fault db' a htx => ?_
    simp only [Settings.exec, Settings.createApiTokenTx] at htx
    refine audited_log htx rfl fun changed hwrite => ?_
    split at hwrite
    · cases hwrite
    · cases hwrite
      rfl
  | revokeApiToken | changePassword | updateProfile | uploadAvatar | deleteAvatar
  | revokeOtherSessions | revokeSession =>
    refine complete_commit (fun fault => Settings.exec cfg.env fault now _) rfl (fun _ => rfl)
      fun fault db' a htx => ?_
    simp only [Settings.exec, Settings.revokeApiTokenTx, Settings.changePasswordTx,
      Settings.updateProfileTx, Settings.uploadAvatarTx, Settings.deleteAvatarTx,
      Settings.revokeOtherSessionsTx, Settings.revokeSessionTx] at htx
    refine audited_log htx rfl fun changed hwrite => ?_
    cases hwrite
    rfl

theorem createProject_grants {session : Auth.Session} {form : Projects.ProjectForm} {db db' : Db}
    {projectId : Int} (h : Projects.createProject session form db = .ok (db', projectId)) :
    Grants db (.createProject session form) := by
  obtain ⟨u, hcsrf, h⟩ := Except.bind_ok h
  obtain ⟨⟨name, slug, description⟩, hcheck, h⟩ := Except.bind_ok h
  change Projects.createProjectTx session.userId name slug description db = _ at h
  simp only [Projects.createProjectTx] at h
  refine ⟨?_, name, slug, description, hcheck, ?_⟩
  · unfold Auth.checkCsrf at hcsrf
    split at hcsrf
    · next heq => exact heq
    · cases hcsrf
  · split at h
    · cases h
    · next hslug =>
      split at h
      · cases h
      · next hmember =>
        exact ⟨by simpa using hslug, Ownership.roleIn_eq_none.mpr (by simpa using hmember)⟩

theorem createProject_of_grants {session : Auth.Session} {form : Projects.ProjectForm} {db : Db}
    (h : Grants db (.createProject session form)) : ∃ project,
    Projects.createProject session form db = .ok ({ db with
        projects := db.projects.insert project
        memberships := db.memberships ++ [⟨db.projects.nextId, session.userId, .owner⟩] },
      db.projects.nextId) := by
  obtain ⟨hcsrf, name, slug, description, hcheck, hslug, hrole⟩ := h
  have hmember : ¬ (db.memberships.any fun m =>
      m.projectId = db.projects.nextId ∧ m.userId = session.userId) = true := by
    simpa using Ownership.roleIn_eq_none.mp hrole
  refine ⟨⟨slug, name, description, session.userId⟩, ?_⟩
  simp only [Projects.createProject, Auth.checkCsrf, hcsrf, if_true, hcheck, bind, Except.bind,
    Projects.createProjectTx, hslug, Option.isSome_none, Bool.false_eq_true, if_false, if_neg hmember]

/-- The user of a membership form is found, or can be created. -/
theorem findOrInsertUser_iff {db : Db} {argon2 : Except String String} {form : Projects.MemberForm} :
    (∃ r, Projects.findOrInsertUser db argon2 form = .ok r) ↔
      (db.users.find? fun _ u =>
          nocaseEq u.email (Text.toAsciiLowercase (Text.trim form.email))).isSome = true ∨
        ∃ hash, Forms.hashPassword argon2 form.password = .ok hash := by
  simp only [Projects.findOrInsertUser]
  cases hfind : db.users.find? fun _ u =>
      nocaseEq u.email (Text.toAsciiLowercase (Text.trim form.email)) with
  | some row => simp
  | none =>
    cases Forms.hashPassword argon2 form.password with
    | ok hash => simp [bind, Except.bind, Projects.insertUser, hfind]
    | error e => simp [bind, Except.bind]

/-- What a membership write is going to commit, when nothing stops it. -/
theorem writeMember_of_grants {request : Projects.CheckedMember} {argon2 : Except String String}
    {db : Db} (h : Grants db (.writeMember request argon2)) : ∃ users,
    Projects.writeMember request argon2 db = .ok ({ db with
        users
        memberships := Projects.upsertMembership db.memberships request.projectId
          (Projects.targetUser db request.form) request.role }, ()) := by
  obtain ⟨huser, hpolicy, hself, -⟩ := h
  obtain ⟨⟨db₁, userId⟩, hfound⟩ := findOrInsertUser_iff.mpr huser
  obtain ⟨rfl, users, -, rfl⟩ := Projects.findOrInsertUser_ok hfound
  have hadmin : ¬ (request.actor < .owner ∧ (Auth.membershipRole { db with users }
      request.projectId (Projects.targetUser db request.form)).any fun existing =>
        .admin ≤ existing) := by
    rintro ⟨hactor, hany⟩
    obtain ⟨existing, hrole, hge⟩ := Option.any_eq_true _ _ |>.mp hany
    exact ProjectRole.not_lt.mpr (by simpa using hge) (hpolicy hactor existing hrole)
  have howner : ¬ (Projects.targetUser db request.form = request.actorId ∧
      request.role ≠ .owner) := fun ⟨heq, hne⟩ => hne (hself heq)
  refine ⟨users, ?_⟩
  simp only [Projects.writeMember, hfound, bind, Except.bind, if_neg hadmin, if_neg howner]

/-- Both requests commit a role that was not there, and no audit row. -/
theorem grants_commits (cfg : Setup) (now : Int) {db : Db} {request : Request}
    (h : Grants db request) : ¬ Untouched request db (execAudited cfg none now db request).2 ∧
      (execAudited cfg none now db request).2.auditLog = db.auditLog := by
  rw [execAudited_none]
  cases request with
  | createProject session form =>
    obtain ⟨project, htx⟩ := createProject_of_grants h
    have hrole := h.2.choose_spec.choose_spec.choose_spec.2.2
    have hdb := congrArg Prod.snd (commit_ok htx)
    change (Server.execRequest cfg now db (.createProject session form)).2 = _ at hdb
    rw [hdb]
    refine ⟨fun hsame => ?_, rfl⟩
    have hroles := hsame.roles db.projects.nextId session.userId
    simp only [Ownership.membershipRole_eq, Ownership.roleIn_append,
      Ownership.roleIn_singleton] at hroles hrole
    simp [hrole] at hroles
  | writeMember request argon2 =>
    obtain ⟨users, htx⟩ := writeMember_of_grants h
    have hrole := h.2.2.2
    have hdb := congrArg Prod.snd (commit_ok htx)
    change (Server.execRequest cfg now db (.writeMember request argon2)).2 = _ at hdb
    rw [hdb]
    refine ⟨fun hsame => ?_, rfl⟩
    have hroles := hsame.roles request.projectId (Projects.targetUser db request.form)
    simp only [Ownership.membershipRole_eq, Ownership.roleIn_upsertMembership] at hroles hrole
    simp only [and_self, if_true] at hroles
    exact hrole hroles.symm
  | _ => exact absurd h id

theorem untouched_createProject {session : Auth.Session} {form : Projects.ProjectForm} {db : Db}
    (h : ¬ Grants db (.createProject session form)) (cfg : Setup) (now : Int) :
    Untouched (.createProject session form) db
      (Server.execRequest cfg now db (.createProject session form)).2 :=
  untouched_commit fun _ _ htx => absurd (createProject_grants htx) h

theorem untouched_writeMember {request : Projects.CheckedMember} {argon2 : Except String String}
    {db : Db} (h : ¬ Grants db (.writeMember request argon2)) (cfg : Setup) (now : Int) :
    Untouched (.writeMember request argon2) db
      (Server.execRequest cfg now db (.writeMember request argon2)).2 := by
  refine untouched_commit fun db' _ htx => ?_
  obtain ⟨hpolicy, hself, users, hkept, rfl⟩ := Projects.writeMember_ok htx
  obtain ⟨r, huser, -⟩ := Except.bind_ok htx
  have hrole : Auth.membershipRole db request.projectId (Projects.targetUser db request.form) =
      some request.role := by
    by_contra hne
    exact h ⟨findOrInsertUser_iff.mp ⟨r, huser⟩, hpolicy, hself, hne⟩
  refine { Untouched.refl (.writeMember request argon2) db with
    roles := fun projectId userId => ?_
    users := fun id u hu => ⟨u, hkept.get? hu, rfl, rfl⟩ }
  simp only [Ownership.membershipRole_eq, Ownership.roleIn_upsertMembership] at hrole ⊢
  split
  · next heq => rw [heq.1, heq.2, hrole]
  · rfl

/-- The audit trail of one request has a gap exactly when the request grants a
role. -/
theorem complete_iff (cfg : Setup) (now : Int) (db : Db) (request : Request) :
    Complete cfg now db request ↔ ¬ Grants db request := by
  constructor
  · intro hcomplete hgrants
    obtain ⟨hchange, hlog⟩ := grants_commits cfg now hgrants
    obtain ⟨-, row, userId, -, -, hrow⟩ := hcomplete none _ rfl hchange
    have hseq := congrArg Table.seq (hlog.symm.trans hrow)
    simp at hseq
  · intro hgrants
    have hframe := Server.exec_frame cfg now db (.request request)
    cases request with
    | createProject session form =>
      exact complete_of_untouched fun _ => untouched_createProject hgrants cfg now
    | writeMember request argon2 =>
      exact complete_of_untouched fun _ => untouched_writeMember hgrants cfg now
    | account request => exact complete_account cfg now db request
    | ingest req body storageId =>
      exact complete_of_untouched fun _ => untouched_ingest cfg now db req body storageId _
    | bootstrap argon2 form =>
      refine complete_of_untouched fun _ => untouched_commit fun db' a htx => ?_
      obtain ⟨-, u, rfl⟩ := Projects.bootstrap_ok htx
      exact { Untouched.refl (.bootstrap argon2 form) db with
        users := fun id u hu => ⟨u, db.users.get?_insert_of_some _ hu, rfl, rfl⟩ }
    | createIngestKey projectId userId name key =>
      refine complete_of_untouched fun _ => untouched_commit fun db' a htx => ?_
      obtain ⟨k, -, rfl⟩ := Projects.createIngestKey_ok htx
      exact { Untouched.refl (.createIngestKey projectId userId name key) db with
        revocations := fun id k hk => ⟨k, db.ingestKeys.get?_insert_of_some _ hk, rfl⟩ }
    | revokeIngestKey projectId userId keyId slug =>
      refine complete_commit (fun fault => audited fault (keyRevoked userId keyId slug)
        (revokeKeyWrite projectId keyId now)) rfl (fun _ => rfl) fun fault db' a htx => audited_log htx rfl ?_
      intro changed hwrite
      unfold revokeKeyWrite at hwrite
      dsimp only at hwrite
      split at hwrite
      · cases hwrite
      · cases hwrite
        rfl
    | createWebhook slug endpoint =>
      refine complete_commit (fun fault => audited fault (webhookCreated slug endpoint)
        (createWebhookWrite endpoint)) rfl (fun _ => rfl) fun fault db' a htx => audited_log htx rfl ?_
      intro changed hwrite
      cases hwrite
      rfl
    | deleteWebhook projectId userId webhookId slug =>
      refine complete_commit (fun fault => audited fault (webhookDeleted userId webhookId slug)
        (deleteWebhookWrite projectId webhookId)) rfl (fun _ => rfl) fun fault db' a htx => audited_log htx rfl ?_
      intro changed hwrite
      unfold deleteWebhookWrite at hwrite
      split at hwrite
      · cases hwrite
      · cases hwrite
        rfl
    | setIssueStatus | replaceIssueTags | insertComment | updateComment | deleteComment
    | loginFailure | loginSuccess => exact complete_of_untouched fun _ => untouched_of_frame hframe rfl
    | createSession userId token csrf sessionDays =>
      refine complete_of_untouched fun _ => untouched_commit fun db' u htx => ?_
      obtain ⟨-, rfl⟩ := Auth.createSession_ok htx
      exact { Untouched.refl (.createSession userId token csrf sessionDays) db with
        sessions := fun _ id s hs => db.sessions.get?_insert_of_some _ hs }
    | recordLogin row =>
      refine complete_of_untouched fun fault => ?_
      cases fault with
      | some error => exact .refl _ db
      | none => exact untouched_of_frame hframe rfl

/-- One operation of the service: its time and the fate of its audit insert. -/
structure Label where
  now : Int
  fault : Option AppError
  op : Op

def step (cfg : Setup) (db : Db) (label : Label) : Option Db :=
  match label.op with
  | .request request => some (execAudited cfg label.fault label.now db request).2
  | .worker w => some (Server.execWorker label.now db w).2

/-- The request of the step, if it is one, is complete. -/
def CompleteStep (cfg : Setup) (db : Db) (label : Label) : Prop :=
  ∀ request, label.op = .request request → Complete cfg label.now db request

def GrantsNothing (db : Db) (label : Label) : Prop :=
  ∀ request, label.op = .request request → ¬ Grants db request

theorem completeStep_iff (cfg : Setup) (db : Db) (label : Label) :
    CompleteStep cfg db label ↔ GrantsNothing db label := by
  unfold CompleteStep GrantsNothing
  simp only [complete_iff]

/-- In every run, from any store, every mutation is accounted for exactly when
no request of the run creates a project or sets a member to a different role. -/
theorem audit_complete (cfg : Setup) (labels : List Label) (db : Db) :
    Runs.Along (step cfg) (CompleteStep cfg) labels db ↔
      Runs.Along (step cfg) GrantsNothing labels db :=
  Runs.along_congr (completeStep_iff cfg) labels db

def Sample.setup : Setup := ⟨Sample.crates, none⟩

/-- The first user has created a project. -/
def Sample.ownerOnly : Db := Server.after Sample.setup [
  (0, .request (.bootstrap (.ok "$argon2id$") ⟨"ada@example.org", "Ada", "correct horse"⟩)),
  (0, .request (.createProject ⟨1, "csrf"⟩ ⟨"csrf", "Demo", some "demo", none⟩))] .empty

def Sample.addBob : Request :=
  .writeMember ⟨1, .owner, 1, .admin, ⟨"csrf", "bob@example.org", "Bob", "correct horse", "admin"⟩⟩
    (.ok "$argon2id$")

def Sample.withBob : Db := (execAudited Sample.setup none 0 Sample.ownerOnly Sample.addBob).2

set_option maxRecDepth 20000 in
/-- A new admin joins the project, and the audit log stays empty. -/
theorem addBob_unaudited :
    Auth.membershipRole Sample.ownerOnly 1 2 = none ∧
      Auth.membershipRole Sample.withBob 1 2 = some .admin ∧
      Sample.withBob.auditLog.rows.length = 0 ∧
      ¬ Complete Sample.setup 0 Sample.ownerOnly Sample.addBob := by
  have hbefore : Auth.membershipRole Sample.ownerOnly 1 2 = none := by decide +kernel
  have hafter : Auth.membershipRole Sample.withBob 1 2 = some .admin := by decide +kernel
  have hlog : Sample.withBob.auditLog.rows.length = 0 := by decide +kernel
  refine ⟨hbefore, hafter, hlog, fun hcomplete => ?_⟩
  have hchange : ¬ Untouched Sample.addBob Sample.ownerOnly Sample.withBob := by
    intro hsame
    have hroles := hsame.roles 1 2
    rw [hafter, hbefore] at hroles
    cases hroles
  obtain ⟨-, row, userId, -, -, hrow⟩ := hcomplete none Sample.withBob rfl hchange
  rw [hrow] at hlog
  simp at hlog

end Zbierak.AuditTrail
