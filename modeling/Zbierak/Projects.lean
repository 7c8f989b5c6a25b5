import Zbierak.Auth
import Zbierak.Forms

/-!
# Projects, members and ingestion keys

`create_member` reads the actor's role twice before its transaction starts and
decides with the role it read, so its three phases are separate definitions:
`authorizeMember`, `readActor` and `writeMember`.
-/
namespace Zbierak.Projects

structure BootstrapForm where
  email : String
  displayName : String
  password : String
  deriving DecidableEq, Repr

structure ProjectForm where
  csrfToken : String
  name : String
  slug : Option String
  description : Option String
  deriving DecidableEq, Repr

structure MemberForm where
  csrfToken : String
  email : String
  displayName : String
  password : String
  role : String
  deriving DecidableEq, Repr

def insertUser (db : Db) (email displayName passwordHash : String) : Except AppError (Db × Int) :=
  if (db.users.find? fun _ u => nocaseEq u.email email).isSome then
    .error (.database (.unique "users.email"))
  else .ok ({ db with users := db.users.insert ⟨email, displayName, passwordHash⟩ },
    db.users.nextId)

/-- The transaction that creates the first user of an installation. -/
def bootstrapTx (form : BootstrapForm) (passwordHash : String) : Tx Int := fun db =>
  if db.users.rows ≠ [] then .error .notFound
  else insertUser db (Text.toAsciiLowercase (Text.trim form.email)) (Text.trim form.displayName)
    passwordHash

def bootstrap (argon2 : Except String String) (form : BootstrapForm) : Tx Int := fun db => do
  Forms.validateIdentity form.email form.displayName
  let passwordHash ← Forms.hashPassword argon2 form.password
  bootstrapTx form passwordHash db

/-- Name, slug and description that the project is created with. -/
def checkProject (form : ProjectForm) : Except AppError (String × String × String) := do
  let name ← Forms.requiredText "name" form.name 100
  let slug := match form.slug with
    | some slug => if Text.trim slug = "" then Forms.slugify name else slug
    | none => Forms.slugify name
  Forms.validateSlug slug
  let description := Text.trim (form.description.getD "")
  if Text.charCount description > 240 then
    .error (.badRequest "description must contain at most 240 characters")
  .ok (name, slug, description)

def createProjectTx (userId : Int) (name slug description : String) : Tx Int := fun db =>
  if (db.projects.find? fun _ p => nocaseEq p.slug slug).isSome then
    .error (.database (.unique "projects.slug"))
  else if db.memberships.any fun m => m.projectId = db.projects.nextId ∧ m.userId = userId then
    .error (.database (.unique "project_memberships"))
  else
    let projectId := db.projects.nextId
    .ok ({ db with
        projects := db.projects.insert ⟨slug, name, description, userId⟩
        memberships := db.memberships ++ [⟨projectId, userId, .owner⟩] },
      projectId)

def createProject (session : Auth.Session) (form : ProjectForm) : Tx Int := fun db => do
  Auth.checkCsrf session form.csrfToken
  let (name, slug, description) ← checkProject form
  createProjectTx session.userId name slug description db

/-- A membership request that passed the role check. -/
structure AuthorizedMember where
  actorId : Int
  projectId : Int
  role : ProjectRole
  form : MemberForm
  deriving DecidableEq, Repr

/-- A membership request that is ready to write, with the actor's role as it
was read. -/
structure CheckedMember where
  actorId : Int
  actor : ProjectRole
  projectId : Int
  role : ProjectRole
  form : MemberForm
  deriving DecidableEq, Repr

def authorizeMember (session : Auth.Session) (slug : String) (form : MemberForm) (db : Db) :
    Except AppError AuthorizedMember := do
  Auth.checkCsrf session form.csrfToken
  let projectId ← Auth.requireProjectRole db session.userId slug .admin
  match ProjectRole.parse form.role with
  | none => .error (.badRequest "role must be owner, admin, developer, or viewer")
  | some role => .ok ⟨session.userId, projectId, role, form⟩

def readActor (request : AuthorizedMember) (db : Db) : Except AppError CheckedMember :=
  match Auth.membershipRole db request.projectId request.actorId with
  | none => .error (.database .rowNotFound)
  | some actor =>
    if actor < .owner ∧ .admin ≤ request.role then .error .forbidden
    else do
      Forms.validateIdentity request.form.email request.form.displayName
      .ok ⟨request.actorId, actor, request.projectId, request.role, request.form⟩

/-- The user a membership form is about: the one with its email, or the one the
request is going to create. -/
def targetUser (db : Db) (form : MemberForm) : Int :=
  match db.users.find? fun _ u => nocaseEq u.email (Text.toAsciiLowercase (Text.trim form.email)) with
  | some (id, _) => id
  | none => db.users.nextId

/-- The user the form names, created when the email is new. -/
def findOrInsertUser (db : Db) (argon2 : Except String String) (form : MemberForm) :
    Except AppError (Db × Int) :=
  let email := Text.toAsciiLowercase (Text.trim form.email)
  match db.users.find? fun _ u => nocaseEq u.email email with
  | some (id, _) => .ok (db, id)
  | none => do
    let passwordHash ← Forms.hashPassword argon2 form.password
    insertUser db email (Text.trim form.displayName) passwordHash

/-- Insert a membership or replace the role of the one there is. -/
def upsertMembership (memberships : List Membership) (projectId userId : Int) (role : ProjectRole) :
    List Membership :=
  Upsert.upsert (fun m => m.projectId = projectId ∧ m.userId = userId) (fun m => { m with role })
    ⟨projectId, userId, role⟩ memberships

def writeMember (request : CheckedMember) (argon2 : Except String String) : Tx Unit := fun db => do
  let (db, userId) ← findOrInsertUser db argon2 request.form
  let target := Auth.membershipRole db request.projectId userId
  if request.actor < .owner ∧ target.any fun existing => .admin ≤ existing then
    .error .forbidden
  else if userId = request.actorId ∧ request.role ≠ .owner then
    .error (.badRequest "an owner cannot demote their own membership")
  else .ok ({ db with
    memberships := upsertMembership db.memberships request.projectId userId request.role }, ())

/-- `key` is the random credential that is shown once. -/
def createIngestKey (env : Crates) (projectId userId : Int) (rawName key : String) : Tx Int :=
  fun db => do
    let name ← Forms.requiredText "name" rawName 100
    let keyHash := Auth.tokenHash env key
    if (db.ingestKeys.find? fun _ k => k.keyHash = keyHash).isSome then
      .error (.database (.unique "ingest_keys.key_hash"))
    else .ok ({ db with
        ingestKeys := db.ingestKeys.insert
          ⟨projectId, name, Text.takeChars 12 key, keyHash, userId, none, none⟩ },
      db.ingestKeys.nextId)

def revokeIngestKey (projectId userId keyId : Int) (slug : String) (now : Int) : Tx Unit := fun db =>
  let live := fun id (k : IngestKey) =>
    decide (id = keyId ∧ k.projectId = projectId ∧ k.revokedAt = none)
  if (db.ingestKeys.select live).isEmpty then .error .notFound
  else
    let revoked := { db with
      ingestKeys := db.ingestKeys.update live fun k => { k with revokedAt := some now } }
    .ok (revoked.record (some userId) "ingest_key.revoked" (some "ingest_key")
      (some (toString keyId)) (.object [("project", .string slug)]), ())

theorem insertUser_ok {db db' : Db} {email displayName passwordHash : String} {userId : Int}
    (h : insertUser db email displayName passwordHash = .ok (db', userId)) :
    userId = db.users.nextId ∧
      db' = { db with users := db.users.insert ⟨email, displayName, passwordHash⟩ } := by
  unfold insertUser at h
  split at h
  · cases h
  · cases h
    exact ⟨rfl, rfl⟩

theorem bootstrap_ok {db db' : Db} {argon2 : Except String String} {form : BootstrapForm}
    {userId : Int} (h : bootstrap argon2 form db = .ok (db', userId)) :
    db.users.rows = [] ∧ ∃ u, db' = { db with users := db.users.insert u } := by
  obtain ⟨-, -, h⟩ := Except.bind_ok h
  obtain ⟨hash, -, h⟩ := Except.bind_ok h
  unfold bootstrapTx at h
  split at h
  · cases h
  · next hrows => exact ⟨not_not.mp hrows, _, (insertUser_ok h).2⟩

theorem createProject_ok {db db' : Db} {session : Auth.Session} {form : ProjectForm}
    {projectId : Int} (h : createProject session form db = .ok (db', projectId)) :
    ∃ name slug description,
      (∀ id p, db.projects.get? id = some p → nocaseEq p.slug slug = false) ∧
      (∀ m ∈ db.memberships, ¬ (m.projectId = db.projects.nextId ∧ m.userId = session.userId)) ∧
      db' = { db with
        projects := db.projects.insert ⟨slug, name, description, session.userId⟩
        memberships := db.memberships ++ [⟨db.projects.nextId, session.userId, .owner⟩] } := by
  obtain ⟨-, -, h⟩ := Except.bind_ok h
  obtain ⟨⟨name, slug, description⟩, -, h⟩ := Except.bind_ok h
  change createProjectTx session.userId name slug description db = _ at h
  simp only [createProjectTx] at h
  split at h
  · cases h
  · next hslug =>
    split at h
    · cases h
    · next hmember =>
      cases h
      refine ⟨name, slug, description, fun id p hp => ?_, ?_, rfl⟩
      · exact db.projects.find?_none (by simpa using hslug) hp
      · simpa using hmember

theorem findOrInsertUser_ok {db db' : Db} {argon2 : Except String String} {form : MemberForm}
    {userId : Int} (h : findOrInsertUser db argon2 form = .ok (db', userId)) :
    userId = targetUser db form ∧ ∃ users, Table.Extended db.users users ∧ db' = { db with users } := by
  simp only [findOrInsertUser] at h
  split at h
  · next id u hfind =>
    cases h
    exact ⟨by simp [targetUser, hfind], _, .refl _, rfl⟩
  · next hfind =>
    obtain ⟨hash, -, h⟩ := Except.bind_ok h
    obtain ⟨rfl, hdb⟩ := insertUser_ok h
    exact ⟨by simp [targetUser, hfind], _, .inr ⟨_, rfl⟩, hdb⟩

/-- What a committed membership write did, and the policy it met. -/
theorem writeMember_ok {db db' : Db} {request : CheckedMember} {argon2 : Except String String}
    (h : writeMember request argon2 db = .ok (db', ())) :
    (request.actor < .owner → ∀ existing,
        Auth.membershipRole db request.projectId (targetUser db request.form) = some existing →
          existing < .admin) ∧
      (targetUser db request.form = request.actorId → request.role = .owner) ∧
      ∃ users, Table.Extended db.users users ∧ db' = { db with
        users
        memberships := upsertMembership db.memberships request.projectId
          (targetUser db request.form) request.role } := by
  obtain ⟨⟨db₁, userId⟩, huser, h⟩ := Except.bind_ok h
  obtain ⟨rfl, users, hkept, rfl⟩ := findOrInsertUser_ok huser
  dsimp only at h
  split at h
  · cases h
  · next hpolicy =>
    split at h
    · cases h
    · next hself =>
      cases h
      refine ⟨fun hactor existing hrole => ?_, fun heq => ?_, users, hkept, rfl⟩
      · by_contra hadmin
        refine hpolicy ⟨hactor, ?_⟩
        change Option.any _ (Auth.membershipRole db request.projectId _) = true
        simpa [hrole] using ProjectRole.not_lt.mp hadmin
      · by_contra hrole
        exact hself ⟨heq, hrole⟩

theorem createIngestKey_ok {env : Crates} {db db' : Db} {projectId userId keyId : Int}
    {name key : String} (h : createIngestKey env projectId userId name key db = .ok (db', keyId)) :
    ∃ k, k.revokedAt = none ∧ db' = { db with ingestKeys := db.ingestKeys.insert k } := by
  obtain ⟨checked, -, h⟩ := Except.bind_ok h
  dsimp only at h
  split at h
  · cases h
  · cases h
    exact ⟨_, rfl, rfl⟩

theorem revokeIngestKey_ok {db db' : Db} {projectId userId keyId now : Int} {slug : String}
    (h : revokeIngestKey projectId userId keyId slug now db = .ok (db', ())) :
    ∃ auditLog, db' = { db with
      ingestKeys := db.ingestKeys.update
        (fun id k => id = keyId ∧ k.projectId = projectId ∧ k.revokedAt = none)
        fun k => { k with revokedAt := some now }
      auditLog } := by
  simp only [revokeIngestKey] at h
  split at h
  · cases h
  · cases h
    exact ⟨_, rfl⟩

end Zbierak.Projects
