import Zbierak.Lib.Upsert
import Zbierak.Schema
import Zbierak.Crates

/-!
# Authentication and authorization

Sessions, ingestion keys, the login throttle and the project role check. All
of them read the store; only the throttle and the session creation write it.
-/
namespace Zbierak.Auth

def loginFailureLimit : Nat := 5

def loginLockSeconds : Int := 900

def secureEq (left right : String) : Bool := left = right

def tokenHash (env : Crates) (token : String) : String := env.sha256Hex (Text.toUtf8 token)

/-- Throttling is keyed by the digest of the lowercased email. -/
def loginIdentity (env : Crates) (email : String) : String :=
  tokenHash env (Text.toAsciiLowercase (Text.trim email))

def throttleRow (db : Db) (identity : String) : Option LoginThrottle :=
  db.loginThrottle.find? fun row => row.identityHash = identity

/-- Whether a lock of the row is in force. -/
def rowLocked (row : Option LoginThrottle) (now : Int) : Bool :=
  match row.bind LoginThrottle.lockedUntil with
  | some until_ => now < until_
  | none => false

def loginLocked (env : Crates) (db : Db) (email : String) (now : Int) : Bool :=
  rowLocked (throttleRow db (loginIdentity env email)) now

/-- The update half of the failure upsert: a failure during a lock is not
counted, the first one after a lock starts a new series, and the fifth one of a
series locks. -/
def countFailure (row : LoginThrottle) (now : Int) : LoginThrottle :=
  match row.lockedUntil with
  | some until_ =>
    if now < until_ then { row with updatedAt := now }
    else { row with failures := 1, lockedUntil := none, updatedAt := now }
  | none =>
    { row with
      failures := row.failures + 1
      lockedUntil :=
        if row.failures + 1 ≥ loginFailureLimit then some (now + loginLockSeconds) else none
      updatedAt := now }

def loginFailure (env : Crates) (db : Db) (email : String) (now : Int) : Db :=
  let identity := loginIdentity env email
  { db with
    loginThrottle := Upsert.upsert (fun row => row.identityHash = identity)
      (fun row => countFailure row now) ⟨identity, 1, none, now⟩ db.loginThrottle }

def loginSuccess (env : Crates) (db : Db) (email : String) : Db :=
  let identity := loginIdentity env email
  { db with loginThrottle := db.loginThrottle.filter fun row => row.identityHash ≠ identity }

theorem rowLocked_eq_false {row : Option LoginThrottle} {now : Int} :
    rowLocked row now = false ↔ ∀ until_ ∈ row.bind LoginThrottle.lockedUntil, until_ ≤ now := by
  unfold rowLocked
  cases row.bind LoginThrottle.lockedUntil <;> simp

@[simp] theorem countFailure_identityHash (row : LoginThrottle) (now : Int) :
    (countFailure row now).identityHash = row.identityHash := by
  unfold countFailure
  split
  · split <;> rfl
  · rfl

/-- A recorded failure reaches one row of the throttle table. -/
theorem throttleRow_loginFailure (env : Crates) (db : Db) (email : String) (now : Int)
    (identity : String) :
    throttleRow (loginFailure env db email now) identity =
      if loginIdentity env email = identity then
        some (((throttleRow db identity).map fun row => countFailure row now).getD
          ⟨identity, 1, none, now⟩)
      else throttleRow db identity := by
  unfold throttleRow loginFailure
  split
  · next heq =>
    subst heq
    exact Upsert.find?_upsert_self (by simp) (by simp) _
  · next hne =>
    refine Upsert.find?_upsert_other (fun row hrow => ?_) (by simpa using hne) _
    simp only [decide_eq_true_eq] at hrow
    simp [hrow, hne]

theorem throttleRow_loginSuccess {env : Crates} {db : Db} {email identity : String}
    (h : loginIdentity env email ≠ identity) :
    throttleRow (loginSuccess env db email) identity = throttleRow db identity := by
  simp only [throttleRow, loginSuccess, List.find?_filter]
  congr 1
  funext row
  by_cases hrow : row.identityHash = identity
  · simp [hrow, h.symm]
  · simp [hrow]

/-- What a handler knows about the signed-in operator. -/
structure Session where
  userId : Int
  csrfToken : String
  deriving DecidableEq, Repr

def checkCsrf (session : Session) (supplied : String) : Except AppError Unit :=
  if session.csrfToken = supplied then .ok () else .error .forbidden

/-- The random tokens are the caller's choice; the store keeps the digest, and no
digest twice. -/
def createSession (env : Crates) (userId : Int) (token csrf : String) (now sessionDays : Int) :
    Tx Unit := fun db =>
  let hash := tokenHash env token
  if (db.sessions.find? fun _ s => s.tokenHash = hash).isSome then
    .error (.database (.unique "sessions.token_hash"))
  else .ok ({ db with
      sessions := db.sessions.insert ⟨hash, userId, csrf, now + sessionDays * 86400⟩ }, ())

/-- The digest is that of no session. -/
def NewDigest (db : Db) (hash : String) : Prop :=
  ∀ id s, db.sessions.get? id = some s → s.tokenHash ≠ hash

theorem newDigest_iff {db : Db} {hash : String} :
    NewDigest db hash ↔ ¬ (db.sessions.find? fun _ s => s.tokenHash = hash).isSome = true := by
  constructor
  · intro h hsome
    obtain ⟨⟨id, s⟩, hfind⟩ := Option.isSome_iff_exists.mp hsome
    obtain ⟨hget, hhash⟩ := Table.find?_some _ hfind
    exact h id s hget (of_decide_eq_true hhash)
  · intro h id s hget hhash
    have hmiss := Table.find?_none _ (Option.not_isSome_iff_eq_none.mp h) hget
    simp [hhash] at hmiss

theorem createSession_ok {env : Crates} {userId : Int} {token csrf : String} {now sessionDays : Int}
    {db db' : Db} {u : Unit} (h : createSession env userId token csrf now sessionDays db = .ok (db', u)) :
    NewDigest db (tokenHash env token) ∧ db' = { db with
      sessions := db.sessions.insert
        ⟨tokenHash env token, userId, csrf, now + sessionDays * 86400⟩ } := by
  unfold createSession at h
  dsimp only at h
  split at h
  · cases h
  · next hnew =>
    cases h
    exact ⟨newDigest_iff.mpr hnew, rfl⟩

/-- Key and project of an ingestion credential for one project slug. -/
def ingestKeyProject (env : Crates) (db : Db) (bearer slug : String) : Except AppError (Int × Int) :=
  let hash := tokenHash env bearer
  let rows := db.ingestKeys.rows.filterMap fun k =>
    match db.projects.get? k.2.projectId with
    | some p =>
      if nocaseEq p.slug slug ∧ k.2.keyHash = hash ∧ k.2.revokedAt = none then
        some (k.1, k.2.projectId)
      else none
    | none => none
  match rows.head? with
  | some row => .ok row
  | none => .error .unauthorized

/-- Join of the projects with this slug and the user's memberships in them. -/
def membershipRows (db : Db) (userId : Int) (slug : String) : List (Int × ProjectRole) :=
  db.projects.rows.flatMap fun p =>
    if nocaseEq p.2.slug slug then
      (db.memberships.filter fun m => m.projectId = p.1 ∧ m.userId = userId).map fun m => (p.1, m.role)
    else []

/-- Membership in the project named by `slug` with at least `minimum`; the
project id on success. -/
def requireProjectRole (db : Db) (userId : Int) (slug : String) (minimum : ProjectRole) :
    Except AppError Int :=
  match (membershipRows db userId slug).head? with
  | none => .error .notFound
  | some (projectId, actual) =>
    if actual < minimum then .error .forbidden else .ok projectId

/-- The role stored for a user in a project. -/
def membershipRole (db : Db) (projectId userId : Int) : Option ProjectRole :=
  (db.memberships.find? fun m => m.projectId = projectId ∧ m.userId = userId).map Membership.role

theorem mem_membershipRows {db : Db} {userId : Int} {slug : String} {row : Int × ProjectRole} :
    row ∈ membershipRows db userId slug ↔
      (∃ p, db.projects.get? row.1 = some p ∧ nocaseEq p.slug slug = true) ∧
        ⟨row.1, userId, row.2⟩ ∈ db.memberships := by
  simp only [membershipRows, List.mem_flatMap]
  constructor
  · rintro ⟨p, hp, hrow⟩
    split at hrow
    · next hslug =>
      obtain ⟨m, hm, rfl⟩ := List.mem_map.mp hrow
      simp only [List.mem_filter, decide_eq_true_eq] at hm
      obtain ⟨hm, hproject, huser⟩ := hm
      refine ⟨⟨p.2, (Table.get?_eq_some _).mpr hp, hslug⟩, ?_⟩
      rw [← hproject, ← huser]
      exact hm
    · cases hrow
  · rintro ⟨⟨p, hp, hslug⟩, hm⟩
    refine ⟨(row.1, p), (Table.get?_eq_some _).mp hp, ?_⟩
    rw [if_pos hslug, List.mem_map]
    exact ⟨_, List.mem_filter.mpr ⟨hm, by simp⟩, rfl⟩

/-- The project the slug names. -/
def Names (db : Db) (slug : String) (projectId : Int) : Prop :=
  ∃ p, db.projects.get? projectId = some p ∧ nocaseEq p.slug slug = true

/-- One project at most has the slug. -/
theorem Names.unique {db : Db} (hkeys : db.UniqueKeys) {slug : String} {a b : Int}
    (ha : Names db slug a) (hb : Names db slug b) : a = b := by
  obtain ⟨p, hp, hpslug⟩ := ha
  obtain ⟨q, hq, hqslug⟩ := hb
  refine hkeys.slugs a b p q hp hq ?_
  rw [nocaseEq_iff] at hpslug hqslug ⊢
  exact hpslug.trans hqslug.symm

/-- An ingestion key is good for the project that the slug names. -/
theorem ingestKeyProject_names {env : Crates} {db : Db} {bearer slug : String} {keyId projectId : Int}
    (h : ingestKeyProject env db bearer slug = .ok (keyId, projectId)) : Names db slug projectId := by
  simp only [ingestKeyProject] at h
  split at h
  · next row hrow =>
    cases h
    obtain ⟨k, -, hk⟩ := List.mem_filterMap.mp (List.mem_of_head? hrow)
    split at hk
    · next p hp =>
      split at hk
      · next hkey =>
        cases hk
        exact ⟨p, hp, hkey.1⟩
      · cases hk
    · cases hk
  · cases h

/-- A key that authenticates a request is not revoked. -/
theorem ingestKeyProject_live {env : Crates} {db : Db} {bearer slug : String} {keyId projectId : Int}
    (h : ingestKeyProject env db bearer slug = .ok (keyId, projectId)) :
    ∃ k, db.ingestKeys.get? keyId = some k ∧ k.revokedAt = none := by
  simp only [ingestKeyProject] at h
  split at h
  · next row hrow =>
    cases h
    obtain ⟨k, hmem, hk⟩ := List.mem_filterMap.mp (List.mem_of_head? hrow)
    split at hk
    · split at hk
      · next hkey =>
        cases hk
        exact ⟨k.2, (Table.get?_eq_some _).mpr hmem, hkey.2.2⟩
      · cases hk
    · cases hk
  · cases h

def Member (db : Db) (projectId userId : Int) (role : ProjectRole) : Prop :=
  ⟨projectId, userId, role⟩ ∈ db.memberships

/-- Under the unique indexes a membership is the role that is read. -/
theorem membershipRole_of_member {db : Db} (hkeys : db.UniqueKeys) {projectId userId : Int}
    {role : ProjectRole} (h : Member db projectId userId role) :
    membershipRole db projectId userId = some role := by
  obtain ⟨m, hm⟩ : ∃ m, (db.memberships.find? fun m =>
      m.projectId = projectId ∧ m.userId = userId) = some m := by
    rw [← Option.isSome_iff_exists, List.find?_isSome]
    exact ⟨_, h, by simp⟩
  have hkey := List.find?_some hm
  simp only [decide_eq_true_eq] at hkey
  have hrow := hkeys.memberships _ (List.mem_of_find?_eq_some hm) _ h hkey.1 hkey.2
  rw [membershipRole, hm, hrow, Option.map_some]

/-- A granted role check names a project with this slug in which the user has
a sufficient membership. -/
theorem requireProjectRole_ok {db : Db} {userId projectId : Int} {slug : String}
    {minimum : ProjectRole} (h : requireProjectRole db userId slug minimum = .ok projectId) :
    Names db slug projectId ∧ ∃ role, minimum ≤ role ∧ Member db projectId userId role := by
  unfold requireProjectRole at h
  split at h
  · cases h
  · next id role hrow =>
    split at h
    · cases h
    · next hrole =>
      cases h
      obtain ⟨hp, hm⟩ := mem_membershipRows.mp (List.mem_of_head? hrow)
      exact ⟨hp, role, ProjectRole.not_lt.mp hrole, hm⟩

/-- Without any membership in a project with this slug the answer is the one
for an unknown slug. -/
theorem requireProjectRole_notFound {db : Db} {userId : Int} {slug : String}
    (h : ∀ projectId role, Names db slug projectId → ¬ Member db projectId userId role)
    (minimum : ProjectRole) : requireProjectRole db userId slug minimum = .error .notFound := by
  have hnil : membershipRows db userId slug = [] := by
    rw [List.eq_nil_iff_forall_not_mem]
    rintro row hrow
    obtain ⟨hp, hm⟩ := mem_membershipRows.mp hrow
    exact h row.1 row.2 hp hm
  simp [requireProjectRole, hnil]

/-- Under the unique indexes a sufficient membership is granted. -/
theorem requireProjectRole_of_member {db : Db} (hkeys : db.UniqueKeys) {userId projectId : Int}
    {slug : String} {role minimum : ProjectRole} (hp : Names db slug projectId)
    (hm : Member db projectId userId role) (hrole : minimum ≤ role) :
    requireProjectRole db userId slug minimum = .ok projectId := by
  have hmem : (projectId, role) ∈ membershipRows db userId slug := mem_membershipRows.mpr ⟨hp, hm⟩
  unfold requireProjectRole
  cases hhead : (membershipRows db userId slug).head? with
  | none =>
    rw [List.head?_eq_none_iff] at hhead
    simp [hhead] at hmem
  | some row =>
    obtain ⟨hnames, hm'⟩ := mem_membershipRows.mp (List.mem_of_head? hhead)
    have hid : row.1 = projectId := Names.unique hkeys hnames hp
    have hrow := hkeys.memberships _ hm' _ hm hid rfl
    simp only [Membership.mk.injEq] at hrow
    simp [hid, hrow.2.2, ProjectRole.not_lt.mpr hrole]

end Zbierak.Auth
