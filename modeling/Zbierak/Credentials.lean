import Zbierak.Http
import Zbierak.Server
import Zbierak.Lib.Keyring
import Zbierak.Lib.Lifetime

/-!
# Lifetimes of credentials

A session, an API token and an ingestion key are each good from the operation
that issues them to the one that ends them, whatever else the service does in
between. The tables are read back from the list of operations.
-/
namespace Zbierak.Credentials

open Server

/-- One operation at one reading of the clock. -/
abbrev Timed := Int × Op

def run (cfg : Setup) (db : Db) (op : Timed) : Db := (exec cfg op.1 db op.2).2

/-- The operation creates this session row with this key. -/
def OpensSession (cfg : Setup) (id : Int) (s : SessionRow) (db : Db) : Timed → Prop
  | (now, .request (.createSession userId token csrf sessionDays)) =>
    Auth.NewDigest db (Auth.tokenHash cfg.env token) ∧ id = db.sessions.nextId ∧
      s = ⟨Auth.tokenHash cfg.env token, userId, csrf, now + sessionDays * 86400⟩
  | _ => False

/-- The operation deletes the session row: a logout with its cookie, a new
password or a revocation of the other sessions of its user from another session,
or its own revocation. -/
def ClosesSession (cfg : Setup) (id : Int) (s : SessionRow) : Timed → Prop
  | (_, .request (.account (.logout cookie))) =>
    ∃ token, cookie = some token ∧ s.tokenHash = Auth.tokenHash cfg.env token
  | (_, .request (.account (.changePassword userId _ _ current))) =>
    s.userId = userId ∧ s.tokenHash ≠ current
  | (_, .request (.account (.revokeOtherSessions userId current))) =>
    s.userId = userId ∧ s.tokenHash ≠ current
  | (_, .request (.account (.revokeSession userId sessionId))) => id = sessionId ∧ s.userId = userId
  | _ => False

/-- A deletion is the end of the rows it selects and of no other. -/
theorem get?_delete_iff {ρ : Type} (t : Table ρ) {p : Int → ρ → Bool} {id : Int} {r : ρ} :
    (t.delete p).get? id = some r ↔ t.get? id = some r ∧ ¬ p id r = true := by
  rw [Table.get?_delete, Option.filter_eq_some_iff]
  simp

/-- An insertion adds one row under the next key. -/
theorem get?_insert_iff {ρ : Type} (t : Table ρ) {new : ρ} {id : Int} {r : ρ} :
    (t.insert new).get? id = some r ↔ (id = t.nextId ∧ r = new) ∨ t.get? id = some r := by
  rw [Table.get?_insert]
  by_cases hid : id = t.nextId
  · subst hid
    have hnone : t.get? t.nextId = none := t.get?_nextId
    simp [hnone, eq_comm]
  · simp [hid]

theorem sessions_useApiToken (cfg : Setup) (now : Int) (db : Db) (bearer : String) :
    (run cfg db (now, .request (.account (.useApiToken bearer)))).sessions = db.sessions := by
  refine commit_snd (fun db' => db'.sessions = db.sessions) rfl fun db' a htx => ?_
  simp only [Settings.exec, Settings.apiTokenUser] at htx
  split at htx
  · cases htx
  · split at htx
    · cases htx
    · cases htx
      rfl

theorem sessions_createApiToken (cfg : Setup) (now : Int) (db : Db) (userId : Int)
    (name token : String) :
    (run cfg db (now, .request (.account (.createApiToken userId name token)))).sessions =
      db.sessions := by
  refine commit_snd (fun db' => db'.sessions = db.sessions) rfl fun db' a htx => ?_
  simp only [Settings.exec, Settings.createApiTokenTx] at htx
  obtain ⟨-, changed, hwrite, rfl⟩ := audited_ok htx
  split at hwrite
  · cases hwrite
  · cases hwrite
    rfl

theorem sessions_createSession (cfg : Setup) (now : Int) (db : Db) (userId : Int)
    (token csrf : String) (sessionDays : Int) {id : Int} {s : SessionRow} :
    (run cfg db (now, .request (.createSession userId token csrf sessionDays))).sessions.get? id =
        some s ↔
      (Auth.NewDigest db (Auth.tokenHash cfg.env token) ∧ id = db.sessions.nextId ∧
        s = ⟨Auth.tokenHash cfg.env token, userId, csrf, now + sessionDays * 86400⟩) ∨
      db.sessions.get? id = some s := by
  simp only [run, exec, execRequest, silent, commit, Auth.createSession]
  by_cases htaken : (db.sessions.find? fun _ s => s.tokenHash = Auth.tokenHash cfg.env token).isSome
  · have hold : ¬ Auth.NewDigest db (Auth.tokenHash cfg.env token) := fun h =>
      Auth.newDigest_iff.mp h htaken
    simp only [htaken, if_true, hold, false_and, false_or]
  · have hnew : Auth.NewDigest db (Auth.tokenHash cfg.env token) := Auth.newDigest_iff.mpr htaken
    simp only [htaken, if_false, hnew, true_and, Bool.false_eq_true]
    exact get?_insert_iff db.sessions

theorem run_session (cfg : Setup) (id : Int) (s : SessionRow) (db : Db) (op : Timed) :
    (run cfg db op).sessions.get? id = some s ↔
      OpensSession cfg id s db op ∨ (db.sessions.get? id = some s ∧ ¬ ClosesSession cfg id s op) := by
  obtain ⟨now, op⟩ := op
  have hframe := exec_frame cfg now db op
  have hsame : TableName.sessions ∉ op.writes → (run cfg db (now, op)).sessions = db.sessions :=
    fun hwrites => hframe .sessions (by simpa using hwrites)
  cases op with
  | request r =>
    cases r with
    | createSession userId token csrf sessionDays =>
      simp only [OpensSession, ClosesSession, not_false_eq_true, and_true]
      exact sessions_createSession cfg now db userId token csrf sessionDays
    | account request =>
      simp only [OpensSession, false_or]
      cases request with
      | logout cookie =>
        cases cookie with
        | none => exact ⟨fun h => ⟨h, by rintro ⟨token, ⟨⟩, -⟩⟩, fun h => h.1⟩
        | some token =>
          refine (get?_delete_iff db.sessions).trans ?_
          simp [ClosesSession]
      | changePassword | revokeOtherSessions | revokeSession =>
        refine (get?_delete_iff db.sessions).trans ?_
        simp [ClosesSession]
      | useApiToken bearer => simp [ClosesSession, sessions_useApiToken]
      | createApiToken userId name token => simp [ClosesSession, sessions_createApiToken]
      | revokeApiToken | updateProfile | uploadAvatar | deleteAvatar =>
        exact ⟨fun h => ⟨h, not_false⟩, fun h => h.1⟩
    | ingest | setIssueStatus | replaceIssueTags | insertComment | updateComment | deleteComment
    | bootstrap | createProject | writeMember | createIngestKey | revokeIngestKey | createWebhook
    | deleteWebhook | loginFailure | loginSuccess | recordLogin =>
      rw [hsame (by simp [Op.writes, Request.writes])]
      simp [OpensSession, ClosesSession]
  | worker w =>
    rw [hsame (by simp [Op.writes])]
    simp [OpensSession, ClosesSession]

/-- A session row is there from its creation to the first operation that closes it. -/
theorem sessions_get?_iff (cfg : Setup) (id : Int) (s : SessionRow) (ops : List Timed) :
    (after cfg ops .empty).sessions.get? id = some s ↔
      Lifetime.Since (run cfg) (OpensSession cfg id s) (ClosesSession cfg id s) ops .empty :=
  Lifetime.holds_iff (P := fun db : Db => db.sessions.get? id = some s) (run_session cfg id s)
    (by simp [Db.empty]) ops

/-- A session of the token that was opened and not closed, has not expired, and
whose user exists. -/
structure LiveSession (cfg : Setup) (ops : List Timed) (token : String) (now id : Int)
    (s : SessionRow) : Prop where
  open_ : Lifetime.Since (run cfg) (OpensSession cfg id s) (ClosesSession cfg id s) ops .empty
  token : s.tokenHash = Auth.tokenHash cfg.env token
  unexpired : now < s.expiresAt
  user : ((after cfg ops .empty).users.get? s.userId).isSome = true

/-- After any operations a cookie is accepted exactly when its session lives, for
the user and with the token the session was created with. -/
theorem session_lifetime (cfg : Setup) (ops : List Timed) (token : String) (now : Int) :
    (∀ session, Settings.session cfg.env (after cfg ops .empty) (some token) now = some session →
      ∃ id s, LiveSession cfg ops token now id s ∧ session = ⟨s.userId, s.csrfToken⟩) ∧
    ∀ id s, LiveSession cfg ops token now id s →
      (Settings.session cfg.env (after cfg ops .empty) (some token) now).isSome = true := by
  constructor
  · intro session hsession
    simp only [Settings.session, Option.bind_some] at hsession
    split at hsession
    · next id s hfind =>
      cases hsession
      obtain ⟨hget, hlive⟩ := Table.find?_some _ hfind
      simp only [Bool.and_eq_true, decide_eq_true_eq] at hlive
      exact ⟨id, s, ⟨(sessions_get?_iff cfg id s ops).mp hget, hlive.1.1, hlive.1.2, hlive.2⟩, rfl⟩
    · cases hsession
  · rintro id s ⟨hopen, htoken, hunexpired, huser⟩
    have hget := (sessions_get?_iff cfg id s ops).mpr hopen
    simp only [Settings.session, Option.bind_some]
    split
    · rfl
    · next hnone =>
      have hmiss := Table.find?_none _ hnone hget
      simp [htoken, hunexpired, huser] at hmiss

section Tokens

def tokenColumns : Keyring.Columns ApiToken := ⟨ApiToken.userId, ApiToken.tokenHash, ApiToken.revokedAt⟩

/-- The operation gives the user a token with this digest, under this key. -/
def IssuesToken (cfg : Setup) (id userId : Int) (hash : String) (db : Db) : Timed → Prop
  | (_, .request (.account (.createApiToken user _ token))) =>
    id = db.apiTokens.nextId ∧ user = userId ∧ Auth.tokenHash cfg.env token = hash ∧
      Keyring.Fresh tokenColumns hash db.apiTokens
  | _ => False

def RevokesToken (id userId : Int) : Timed → Prop
  | (_, .request (.account (.revokeApiToken user tokenId))) => tokenId = id ∧ user = userId
  | _ => False

/-- What an operation does to the tokens. -/
inductive TokenWrite (cfg : Setup) (db : Db) : Timed → Table ApiToken → Prop where
  | none {op : Timed} (hissue : ∀ id userId hash, ¬ IssuesToken cfg id userId hash db op)
      (hrevoke : ∀ id userId, ¬ RevokesToken id userId op) : TokenWrite cfg db op db.apiTokens
  | touched {now : Int} {bearer hash : String} : TokenWrite cfg db
      (now, .request (.account (.useApiToken bearer)))
      (db.apiTokens.update (fun _ t => t.tokenHash = hash) fun t => { t with lastUsedAt := some now })
  | issued {now : Int} {user : Int} {name token : String} {t : ApiToken}
      (ht : t.userId = user ∧ t.tokenHash = Auth.tokenHash cfg.env token ∧ t.revokedAt = .none)
      (hfresh : Keyring.Fresh tokenColumns (Auth.tokenHash cfg.env token) db.apiTokens) :
      TokenWrite cfg db (now, .request (.account (.createApiToken user name token)))
        (db.apiTokens.insert t)
  | revoked {now user tokenId : Int} : TokenWrite cfg db
      (now, .request (.account (.revokeApiToken user tokenId)))
      (db.apiTokens.update (fun id t => id = tokenId ∧ t.userId = user ∧ t.revokedAt = .none) fun t =>
        { t with revokedAt := some now })

theorem fresh_token {hash : String} {t : Table ApiToken} :
    ¬ (t.find? fun _ t => t.tokenHash = hash).isSome = true ↔ Keyring.Fresh tokenColumns hash t :=
  Keyring.fresh_of_find? fun i r => by simp [tokenColumns]

theorem run_tokens (cfg : Setup) (db : Db) (op : Timed) :
    TokenWrite cfg db op (run cfg db op).apiTokens := by
  obtain ⟨now, op⟩ := op
  have hframe := exec_frame cfg now db op
  have hsame : TableName.apiTokens ∉ op.writes → (run cfg db (now, op)).apiTokens = db.apiTokens :=
    fun hwrites => hframe .apiTokens (by simpa using hwrites)
  cases op with
  | request r =>
    cases r with
    | account request =>
      cases request with
      | useApiToken bearer =>
        simp only [run, exec, execRequest]
        rcases commit_cases (Settings.exec cfg.env none now (.useApiToken bearer)) db with
          ⟨db', a, htx, hc⟩ | ⟨e, -, hc⟩
        · rw [hc]
          simp only [Settings.exec, Settings.apiTokenUser] at htx
          split at htx
          · cases htx
          · split at htx
            · cases htx
            · cases htx
              exact .touched
        · rw [hc]
          exact .none (fun _ _ _ h => h) fun _ _ h => h
      | createApiToken userId name token =>
        simp only [run, exec, execRequest]
        rcases commit_cases (Settings.exec cfg.env none now (.createApiToken userId name token)) db with
          ⟨db', a, htx, hc⟩ | ⟨e, htx, hc⟩
        · rw [hc]
          simp only [Settings.exec, Settings.createApiTokenTx] at htx
          obtain ⟨-, changed, hwrite, rfl⟩ := audited_ok htx
          split at hwrite
          · cases hwrite
          · next hfresh =>
            cases hwrite
            exact .issued ⟨rfl, rfl, rfl⟩ (fresh_token.mp hfresh)
        · rw [hc]
          refine .none (fun _ _ _ h => ?_) fun _ _ h => h
          obtain ⟨-, -, rfl, hfresh⟩ := h
          simp only [Settings.exec, Settings.createApiTokenTx, audited,
            if_neg (fresh_token.mpr hfresh)] at htx
          cases htx
      | revokeApiToken userId tokenId => exact .revoked
      | logout cookie =>
        have hlogout : (run cfg db (now, .request (.account (.logout cookie)))).apiTokens =
            db.apiTokens := by
          cases cookie <;> rfl
        rw [hlogout]
        exact .none (fun _ _ _ h => h) fun _ _ h => h
      | changePassword | updateProfile | uploadAvatar | deleteAvatar | revokeOtherSessions
      | revokeSession => exact .none (fun _ _ _ h => h) fun _ _ h => h
    | ingest | setIssueStatus | replaceIssueTags | insertComment | updateComment | deleteComment
    | bootstrap | createProject | writeMember | createIngestKey | revokeIngestKey | createWebhook
    | deleteWebhook | loginFailure | loginSuccess | createSession | recordLogin =>
      rw [hsame (by simp [Op.writes, Request.writes])]
      exact .none (fun _ _ _ h => h) fun _ _ h => h
  | worker w =>
    rw [hsame (by simp [Op.writes])]
    exact .none (fun _ _ _ h => h) fun _ _ h => h

theorem run_token_live (cfg : Setup) (id userId : Int) (hash : String) (db : Db) (op : Timed) :
    Keyring.Live tokenColumns id userId hash (run cfg db op).apiTokens ↔
      IssuesToken cfg id userId hash db op ∨
        (Keyring.Live tokenColumns id userId hash db.apiTokens ∧ ¬ RevokesToken id userId op) := by
  have hwrite := run_tokens cfg db op
  generalize (run cfg db op).apiTokens = tokens at hwrite
  cases hwrite with
  | none hissue hrevoke => simp [hissue, hrevoke]
  | touched =>
    refine Iff.trans (Keyring.live_touch fun t => ?_) ?_
    · exact ⟨rfl, rfl, rfl⟩
    · simp [IssuesToken, RevokesToken]
  | issued ht hfresh =>
    obtain ⟨rfl, hhash, hlive⟩ := ht
    rw [Keyring.live_insert hlive]
    simp only [IssuesToken, RevokesToken, not_false_eq_true, and_true, tokenColumns, hhash]
    refine or_congr_left ⟨fun h => ⟨h.1, h.2.1, h.2.2, h.2.2 ▸ hfresh⟩, fun h => ⟨h.1, h.2.1, h.2.2.1⟩⟩
  | @revoked now user tokenId =>
    have hrow : ∀ (i : Int) (t : ApiToken),
        decide (i = tokenId ∧ t.userId = user ∧ t.revokedAt = none) = true ↔
          i = tokenId ∧ tokenColumns.owner t = user ∧ tokenColumns.revokedAt t = none := by
      simp [tokenColumns]
    refine (Keyring.live_revoke hrow fun t => rfl).trans ?_
    simp [IssuesToken, RevokesToken]

theorem run_token_unique (cfg : Setup) (db : Db) (op : Timed)
    (h : Keyring.Unique tokenColumns db.apiTokens) :
    Keyring.Unique tokenColumns (run cfg db op).apiTokens := by
  have hwrite := run_tokens cfg db op
  generalize (run cfg db op).apiTokens = tokens at hwrite
  cases hwrite with
  | none => exact h
  | touched => exact h.update fun t => rfl
  | @issued now user name token t ht hfresh =>
    have hhash : tokenColumns.hash t = Auth.tokenHash cfg.env token := ht.2.1
    exact h.insert (hhash ▸ hfresh)
  | revoked => exact h.update fun t => rfl

theorem tokens_unique (cfg : Setup) (ops : List Timed) :
    Keyring.Unique tokenColumns (after cfg ops .empty).apiTokens :=
  after_invariant (I := fun db => Keyring.Unique tokenColumns db.apiTokens)
    (fun now db op => run_token_unique cfg db (now, op)) ops Keyring.unique_empty

theorem tokens_live_iff (cfg : Setup) (id userId : Int) (hash : String) (ops : List Timed) :
    Keyring.Live tokenColumns id userId hash (after cfg ops .empty).apiTokens ↔
      Lifetime.Since (run cfg) (IssuesToken cfg id userId hash) (RevokesToken id userId) ops .empty :=
  Lifetime.holds_iff (P := fun db : Db => Keyring.Live tokenColumns id userId hash db.apiTokens)
    (run_token_live cfg id userId hash) Keyring.not_live_empty ops

/-- A token is the live one with its digest. -/
theorem apiTokenUser_ok_iff {env : Crates} {db : Db} (hunique : Keyring.Unique tokenColumns db.apiTokens)
    (now : Int) {bearer : String} {userId : Int} :
    (∃ db', Settings.apiTokenUser env bearer now db = .ok (db', userId)) ↔
      bearer.startsWith Settings.apiTokenPrefix = true ∧
        ∃ id, Keyring.Live tokenColumns id userId (Auth.tokenHash env bearer) db.apiTokens := by
  simp only [Settings.apiTokenUser]
  by_cases hkind : bearer.startsWith Settings.apiTokenPrefix = true
  · simp only [hkind, Bool.true_eq_false, if_false, true_and]
    split
    · next hnone =>
      constructor
      · rintro ⟨db', hok⟩
        cases hok
      · rintro ⟨id, t, hget, -, hhash, hrevoked⟩
        have hmiss := db.apiTokens.find?_none hnone hget
        simp only [tokenColumns] at hhash hrevoked
        simp [hhash, hrevoked] at hmiss
    · next id t hfind =>
      obtain ⟨hget, hrow⟩ := db.apiTokens.find?_some hfind
      simp only [decide_eq_true_eq] at hrow
      have hthis : Keyring.Live tokenColumns id t.userId (Auth.tokenHash env bearer) db.apiTokens :=
        ⟨t, hget, rfl, hrow.1, hrow.2⟩
      constructor
      · rintro ⟨db', hok⟩
        cases hok
        exact ⟨id, hthis⟩
      · rintro ⟨id', hother⟩
        rw [(hunique.live hother hthis).2]
        exact ⟨_, rfl⟩
  · simp [hkind]

theorem apiPrincipal_error {env : Crates} {db : Db} {now : Int} {headers : Http.Headers} {e : AppError}
    (h : Http.apiPrincipal env now db headers = .error e) : e = .unauthorized := by
  rcases Except.bind_error h with h | ⟨bearer, -, h⟩
  · exact Http.bearer_error h
  · unfold Settings.apiTokenUser at h
    split at h
    · cases h
      rfl
    · dsimp only at h
      split at h <;> cases h
      rfl

/-- After any operations a request speaks for a user exactly when its header
carries an API token that was issued to that user and that the user has not
revoked since; everything else is refused alike. A token is carried as it was
shown. -/
theorem token_lifetime (cfg : Setup) (ops : List Timed) (headers : Http.Headers) (now userId : Int) :
    ((∃ db', Http.apiPrincipal cfg.env now (after cfg ops .empty) headers = .ok (db', userId)) ↔
      ∃ token, Http.bearer cfg.env headers = .ok token ∧ token.startsWith Settings.apiTokenPrefix = true ∧
        ∃ id, Lifetime.Since (run cfg) (IssuesToken cfg id userId (Auth.tokenHash cfg.env token))
          (RevokesToken id userId) ops .empty) ∧
    (∀ e, Http.apiPrincipal cfg.env now (after cfg ops .empty) headers = .error e → e = .unauthorized) ∧
    ∀ random contentType, Http.bearer cfg.env ⟨some (Http.bearerAuth (Http.apiToken cfg.env random)), contentType⟩ =
      .ok (Http.apiToken cfg.env random) := by
  refine ⟨?_, fun e => apiPrincipal_error, Http.bearer_apiToken cfg.env⟩
  simp only [← tokens_live_iff, ← apiTokenUser_ok_iff (tokens_unique cfg ops) now]
  constructor
  · rintro ⟨db', h⟩
    obtain ⟨token, htoken, huser⟩ := Except.bind_ok h
    exact ⟨token, htoken, db', huser⟩
  · rintro ⟨token, htoken, db', huser⟩
    exact ⟨db', by simp only [Http.apiPrincipal, htoken, bind, Except.bind, huser]⟩

end Tokens

section IngestKeys

def keyColumns : Keyring.Columns IngestKey := ⟨IngestKey.projectId, IngestKey.keyHash, IngestKey.revokedAt⟩

/-- The operation gives the project a key with this digest, under this id. -/
def IssuesKey (cfg : Setup) (id projectId : Int) (hash : String) (db : Db) : Timed → Prop
  | (_, .request (.createIngestKey project _ name key)) =>
    (∃ checked, Forms.requiredText "name" name 100 = .ok checked) ∧ id = db.ingestKeys.nextId ∧
      project = projectId ∧ Auth.tokenHash cfg.env key = hash ∧
      Keyring.Fresh keyColumns hash db.ingestKeys
  | _ => False

def RevokesKey (id projectId : Int) : Timed → Prop
  | (_, .request (.revokeIngestKey project _ keyId _)) => keyId = id ∧ project = projectId
  | _ => False

/-- What an operation does to the ingestion keys. -/
inductive KeyWrite (cfg : Setup) (db : Db) : Timed → Table IngestKey → Prop where
  | none {op : Timed} (hissue : ∀ id projectId hash, ¬ IssuesKey cfg id projectId hash db op)
      (hrevoke : ∀ id projectId, RevokesKey id projectId op →
        ∀ hash, ¬ Keyring.Live keyColumns id projectId hash db.ingestKeys) :
      KeyWrite cfg db op db.ingestKeys
  | touched {now : Int} {req : Ingest.IngestProject} {body : Bytes} {storageId : String} :
      KeyWrite cfg db (now, .request (.ingest req body storageId))
        (db.ingestKeys.update (fun id _ => id = req.keyId) fun k => { k with lastUsedAt := some now })
  | issued {now : Int} {project user : Int} {name key checked : String} {k : IngestKey}
      (hname : Forms.requiredText "name" name 100 = .ok checked)
      (hk : k.projectId = project ∧ k.keyHash = Auth.tokenHash cfg.env key ∧ k.revokedAt = .none)
      (hfresh : Keyring.Fresh keyColumns (Auth.tokenHash cfg.env key) db.ingestKeys) :
      KeyWrite cfg db (now, .request (.createIngestKey project user name key)) (db.ingestKeys.insert k)
  | revoked {now project user keyId : Int} {slug : String} :
      KeyWrite cfg db (now, .request (.revokeIngestKey project user keyId slug))
        (db.ingestKeys.update (fun id k => id = keyId ∧ k.projectId = project ∧ k.revokedAt = .none)
          fun k => { k with revokedAt := some now })

theorem fresh_key {hash : String} {t : Table IngestKey} :
    ¬ (t.find? fun _ k => k.keyHash = hash).isSome = true ↔ Keyring.Fresh keyColumns hash t :=
  Keyring.fresh_of_find? fun i r => by simp [keyColumns]

theorem write_createIngestKey (cfg : Setup) (now : Int) (db : Db) (project user : Int)
    (name key : String) :
    KeyWrite cfg db (now, .request (.createIngestKey project user name key))
      (run cfg db (now, .request (.createIngestKey project user name key))).ingestKeys := by
  simp only [run, exec, execRequest]
  rcases commit_cases (Projects.createIngestKey cfg.env project user name key) db with
    ⟨db', a, htx, hc⟩ | ⟨e, htx, hc⟩
  · rw [hc]
    obtain ⟨checked, hname, h⟩ := Except.bind_ok htx
    dsimp only at h
    split at h
    · cases h
    · next hfresh =>
      cases h
      exact .issued hname ⟨rfl, rfl, rfl⟩ (fresh_key.mp hfresh)
  · rw [hc]
    refine .none (fun _ _ _ h => ?_) fun _ _ h => h.elim
    obtain ⟨⟨checked, hname⟩, -, -, rfl, hfresh⟩ := h
    rw [Projects.createIngestKey, hname] at htx
    simp only [bind, Except.bind, if_neg (fresh_key.mpr hfresh)] at htx
    cases htx

/-- A revocation that finds no live key was refused. -/
theorem write_revokeIngestKey (cfg : Setup) (now : Int) (db : Db) (project user keyId : Int)
    (slug : String) :
    KeyWrite cfg db (now, .request (.revokeIngestKey project user keyId slug))
      (run cfg db (now, .request (.revokeIngestKey project user keyId slug))).ingestKeys := by
  simp only [run, exec, execRequest]
  rcases commit_cases (Projects.revokeIngestKey project user keyId slug now) db with
    ⟨db', a, htx, hc⟩ | ⟨e, htx, hc⟩
  · rw [hc]
    obtain ⟨auditLog, rfl⟩ := Projects.revokeIngestKey_ok htx
    exact .revoked
  · rw [hc]
    refine .none (fun _ _ _ h => h) ?_
    rintro id projectId ⟨rfl, rfl⟩ hash ⟨k, hk, hproject, -, hlive⟩
    simp only [Projects.revokeIngestKey] at htx
    split at htx
    · next hempty =>
      rw [List.isEmpty_iff, List.eq_nil_iff_forall_not_mem] at hempty
      refine hempty (keyId, k) ((db.ingestKeys.mem_select _).mpr ⟨hk, ?_⟩)
      exact decide_eq_true ⟨rfl, hproject, hlive⟩
    · cases htx

theorem run_keys (cfg : Setup) (db : Db) (op : Timed) :
    KeyWrite cfg db op (run cfg db op).ingestKeys := by
  obtain ⟨now, op⟩ := op
  have hframe := exec_frame cfg now db op
  have hsame : TableName.ingestKeys ∉ op.writes → (run cfg db (now, op)).ingestKeys = db.ingestKeys :=
    fun hwrites => hframe .ingestKeys (by simpa using hwrites)
  cases op with
  | request r =>
    cases r with
    | ingest req body storageId =>
      rcases exec_ingest cfg now db req body storageId with
        ⟨e, h⟩ | ⟨response, -, h⟩ | ⟨p, -, -, -, -, h⟩
      · rw [run, h]
        exact .none (fun _ _ _ h => h) fun _ _ h => h.elim
      · rw [run, h]
        exact .touched
      · rw [run, h]
        exact .touched
    | createIngestKey project user name key => exact write_createIngestKey cfg now db project user name key
    | revokeIngestKey project user keyId slug => exact write_revokeIngestKey cfg now db project user keyId slug
    | setIssueStatus | replaceIssueTags | insertComment | updateComment | deleteComment
    | bootstrap | createProject | writeMember | createWebhook | deleteWebhook | loginFailure
    | loginSuccess | createSession | recordLogin | account =>
      rw [hsame (by simp [Op.writes, Request.writes])]
      exact .none (fun _ _ _ h => h) fun _ _ h => h.elim
  | worker w =>
    rw [hsame (by simp [Op.writes])]
    exact .none (fun _ _ _ h => h) fun _ _ h => h.elim

theorem run_key_live (cfg : Setup) (id projectId : Int) (hash : String) (db : Db) (op : Timed) :
    Keyring.Live keyColumns id projectId hash (run cfg db op).ingestKeys ↔
      IssuesKey cfg id projectId hash db op ∨
        (Keyring.Live keyColumns id projectId hash db.ingestKeys ∧ ¬ RevokesKey id projectId op) := by
  have hwrite := run_keys cfg db op
  generalize (run cfg db op).ingestKeys = keys at hwrite
  cases hwrite with
  | none hissue hrevoke =>
    refine ⟨fun h => .inr ⟨h, fun hr => hrevoke _ _ hr _ h⟩, ?_⟩
    rintro (h | h)
    · exact absurd h (hissue _ _ _)
    · exact h.1
  | touched =>
    refine Iff.trans (Keyring.live_touch fun k => ?_) ?_
    · exact ⟨rfl, rfl, rfl⟩
    · simp [IssuesKey, RevokesKey]
  | @issued now project user name key checked k hname hk hfresh =>
    obtain ⟨rfl, hhash, hlive⟩ := hk
    rw [Keyring.live_insert hlive]
    simp only [IssuesKey, RevokesKey, not_false_eq_true, and_true, keyColumns, hhash]
    refine or_congr_left ⟨fun h => ⟨⟨checked, hname⟩, h.1, h.2.1, h.2.2, h.2.2 ▸ hfresh⟩, fun h => ?_⟩
    exact ⟨h.2.1, h.2.2.1, h.2.2.2.1⟩
  | @revoked now project user keyId slug =>
    have hrow : ∀ (i : Int) (k : IngestKey),
        decide (i = keyId ∧ k.projectId = project ∧ k.revokedAt = none) = true ↔
          i = keyId ∧ keyColumns.owner k = project ∧ keyColumns.revokedAt k = none := by
      simp [keyColumns]
    refine (Keyring.live_revoke hrow fun k => rfl).trans ?_
    simp [IssuesKey, RevokesKey]

theorem run_key_unique (cfg : Setup) (db : Db) (op : Timed)
    (h : Keyring.Unique keyColumns db.ingestKeys) :
    Keyring.Unique keyColumns (run cfg db op).ingestKeys := by
  have hwrite := run_keys cfg db op
  generalize (run cfg db op).ingestKeys = keys at hwrite
  cases hwrite with
  | none => exact h
  | touched => exact h.update fun k => rfl
  | @issued now project user name key checked k hname hk hfresh =>
    have hhash : keyColumns.hash k = Auth.tokenHash cfg.env key := hk.2.1
    exact h.insert (hhash ▸ hfresh)
  | revoked => exact h.update fun k => rfl

theorem keys_unique (cfg : Setup) (ops : List Timed) :
    Keyring.Unique keyColumns (after cfg ops .empty).ingestKeys :=
  after_invariant (I := fun db => Keyring.Unique keyColumns db.ingestKeys)
    (fun now db op => run_key_unique cfg db (now, op)) ops Keyring.unique_empty

theorem keys_live_iff (cfg : Setup) (id projectId : Int) (hash : String) (ops : List Timed) :
    Keyring.Live keyColumns id projectId hash (after cfg ops .empty).ingestKeys ↔
      Lifetime.Since (run cfg) (IssuesKey cfg id projectId hash) (RevokesKey id projectId) ops .empty :=
  Lifetime.holds_iff (P := fun db : Db => Keyring.Live keyColumns id projectId hash db.ingestKeys)
    (run_key_live cfg id projectId hash) Keyring.not_live_empty ops

theorem ingestKeyProject_key {env : Crates} {db : Db} {bearer slug : String} {keyId projectId : Int}
    (h : Auth.ingestKeyProject env db bearer slug = .ok (keyId, projectId)) :
    Keyring.Live keyColumns keyId projectId (Auth.tokenHash env bearer) db.ingestKeys := by
  simp only [Auth.ingestKeyProject] at h
  split at h
  · next row hrow =>
    cases h
    obtain ⟨k, hmem, hk⟩ := List.mem_filterMap.mp (List.mem_of_head? hrow)
    split at hk
    · split at hk
      · next hkey =>
        cases hk
        exact ⟨k.2, (Table.get?_eq_some _).mpr hmem, rfl, hkey.2.1, hkey.2.2⟩
      · cases hk
    · cases hk
  · cases h

/-- A live key of the project that the slug names is found, or another one with
its digest. -/
theorem ingestKeyProject_finds {env : Crates} {db : Db} {bearer slug : String} {keyId projectId : Int}
    (hslug : Auth.Names db slug projectId)
    (hkey : Keyring.Live keyColumns keyId projectId (Auth.tokenHash env bearer) db.ingestKeys) :
    ∃ row, Auth.ingestKeyProject env db bearer slug = .ok row := by
  obtain ⟨p, hp, hnocase⟩ := hslug
  obtain ⟨k, hk, rfl, hhash, hlive⟩ := hkey
  simp only [Auth.ingestKeyProject]
  split
  · next row hrow => exact ⟨row, rfl⟩
  · next hnone =>
    rw [List.head?_eq_none_iff, List.filterMap_eq_nil_iff] at hnone
    have hmiss := hnone (keyId, k) (db.ingestKeys.get?_eq_some.mp hk)
    simp only [keyColumns] at hp hhash hlive
    simp [hp, hnocase, hhash, hlive] at hmiss

theorem ingestKeyProject_ok_iff {env : Crates} {db : Db}
    (hunique : Keyring.Unique keyColumns db.ingestKeys) {bearer slug : String} {keyId projectId : Int} :
    Auth.ingestKeyProject env db bearer slug = .ok (keyId, projectId) ↔
      Auth.Names db slug projectId ∧
        Keyring.Live keyColumns keyId projectId (Auth.tokenHash env bearer) db.ingestKeys := by
  constructor
  · exact fun h => ⟨Auth.ingestKeyProject_names h, ingestKeyProject_key h⟩
  · rintro ⟨hslug, hkey⟩
    obtain ⟨⟨keyId', projectId'⟩, hfound⟩ := ingestKeyProject_finds hslug hkey
    obtain ⟨rfl, rfl⟩ := hunique.live (ingestKeyProject_key hfound) hkey
    exact hfound

theorem ingestProject_error {env : Crates} {db : Db} {headers : Http.Headers} {slug : String} {e : AppError}
    (h : Http.ingestProject env db headers slug = .error e) : e = .unauthorized := by
  rcases Except.bind_error h with h | ⟨bearer, -, h⟩
  · exact Http.bearer_error h
  · rcases Except.bind_error h with h | ⟨row, -, h⟩
    · unfold Auth.ingestKeyProject at h
      dsimp only at h
      split at h <;> cases h
      rfl
    · cases h

/-- After any operations a request is let in for a project exactly when its
header carries a key that was issued for the project and not revoked there since,
and its path names the project; everything else is refused alike. A key is
carried as it was shown. -/
theorem key_lifetime (cfg : Setup) (ops : List Timed) (headers : Http.Headers) (slug : String) :
    (∀ req, Http.ingestProject cfg.env (after cfg ops .empty) headers slug = .ok req ↔
      req.slug = slug ∧ Auth.Names (after cfg ops .empty) slug req.projectId ∧
        ∃ key, Http.bearer cfg.env headers = .ok key ∧ Lifetime.Since (run cfg)
          (IssuesKey cfg req.keyId req.projectId (Auth.tokenHash cfg.env key))
          (RevokesKey req.keyId req.projectId) ops .empty) ∧
    (∀ e, Http.ingestProject cfg.env (after cfg ops .empty) headers slug = .error e →
      e = .unauthorized) ∧
    ∀ random contentType, Http.bearer cfg.env ⟨some (Http.bearerAuth (Http.ingestKey cfg.env random)), contentType⟩ =
      .ok (Http.ingestKey cfg.env random) := by
  refine ⟨fun req => ?_, fun e => ingestProject_error, Http.bearer_ingestKey cfg.env⟩
  simp only [← keys_live_iff]
  constructor
  · intro h
    obtain ⟨key, hkey, h⟩ := Except.bind_ok h
    obtain ⟨⟨keyId, projectId⟩, hrow, h⟩ := Except.bind_ok h
    cases h
    obtain ⟨hslug, hlive⟩ := (ingestKeyProject_ok_iff (keys_unique cfg ops)).mp hrow
    exact ⟨rfl, hslug, key, hkey, hlive⟩
  · rintro ⟨rfl, hslug, key, hkey, hlive⟩
    have hrow := (ingestKeyProject_ok_iff (keys_unique cfg ops)).mpr ⟨hslug, hlive⟩
    simp only [Http.ingestProject, hkey, hrow, bind, Except.bind]
    rfl

end IngestKeys

end Zbierak.Credentials
