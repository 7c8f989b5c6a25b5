import Zbierak.IssuePage
import Zbierak.UiForms

/-!
# Pages of the operator interface

What each page hands to its template, for a signed-in user. Rows are joined and
filtered first, then sorted; the template itself is not modelled.
-/
namespace Zbierak.Pages

open IssuePage (avatarUrl IssueDetails Rendering)

/-- What the queries read beside the columns of the store: the creation times of
rows, and the order in which matching rows are visited. The order decides
between rows that sort alike. -/
structure Reading where
  userCreated : Int → Int
  projectCreated : Int → Int
  keyCreated : Int → Int
  endpointCreated : Int → Int
  tokenCreated : Int → Int
  sessionCreated : Int → Int
  visit : {α : Type} → List α → List α
  visit_perm : ∀ {α : Type} (rows : List α), (visit rows).Perm rows

/-- `ORDER BY key`. -/
def Reading.ascending {α κ : Type} [LE κ] [DecidableLE κ] (rd : Reading) (key : α → κ)
    (rows : List α) : List α :=
  (rd.visit rows).insertionSort fun a b => key a ≤ key b

/-- `ORDER BY key DESC`. -/
def Reading.descending {α : Type} (rd : Reading) (key : α → Int) (rows : List α) : List α :=
  (rd.visit rows).insertionSort fun a b => key b ≤ key a

structure AvatarRef where
  url : String
  version : String
  deriving DecidableEq, Repr

/-- A user as the pages show it. -/
structure UserView where
  id : Int
  email : String
  displayName : String
  avatar : Option AvatarRef
  deriving DecidableEq, Repr

structure ProjectRow extends IssuePage.ProjectRow where
  createdAt : Int
  status : String
  deriving DecidableEq, Repr

structure EndpointRow where
  id : Int
  name : String
  kind : EndpointKind
  url : String
  enabled : Bool
  projectSlug : String
  deriving DecidableEq, Repr

structure MemberRow where
  id : Int
  email : String
  displayName : String
  role : ProjectRole
  avatarSha256 : Option String
  avatarUrl : Option String
  deriving DecidableEq, Repr

structure KeyRow where
  id : Int
  name : String
  keyPrefix : String
  createdAt : Int
  lastUsedAt : Option Int
  deriving DecidableEq, Repr

structure ApiTokenRow where
  id : Int
  name : String
  tokenPrefix : String
  createdAt : Int
  lastUsedAt : Option Int
  deriving DecidableEq, Repr

structure SessionView where
  id : Int
  createdAt : Int
  expiresAt : Int
  isCurrent : Bool
  deriving DecidableEq, Repr

structure UserDirectoryRow where
  id : Int
  email : String
  displayName : String
  createdAt : Int
  avatarSha256 : Option String
  projectCount : Nat
  avatarUrl : Option String
  isInstanceOwner : Bool
  deriving DecidableEq, Repr

structure UserActivityView where
  id : Int
  kind : String
  action : String
  statusFrom : Option String
  statusTo : Option String
  issueId : Int
  issueTitle : String
  projectSlug : String
  createdAt : Int
  deriving DecidableEq, Repr

def avatarSha256 (db : Db) (userId : Int) : Option String :=
  (db.userAvatars.find? fun a => a.userId = userId).map UserAvatar.sha256

def userById (db : Db) (userId : Int) : Option UserView :=
  (db.users.get? userId).map fun u => {
    id := userId
    email := u.email
    displayName := u.displayName
    avatar := (avatarSha256 db userId).map fun sha256 =>
      let version := Text.takeChars 16 sha256
      ⟨s!"/users/{userId}/avatar?v={version}", sha256⟩ }

/-- No statement writes the status of a project; the column keeps its default. -/
def projectStatus : String := "active"

def ingestUrl (slug : String) : String := "/api/v1/projects/" ++ slug ++ "/events"

/-- Projects joined with the memberships of one user in them. -/
def joinedProjects (db : Db) (userId : Int) : List (Int × Project × ProjectRole) :=
  db.projects.rows.flatMap fun p =>
    (db.memberships.filter fun m => m.projectId = p.1 ∧ m.userId = userId).map fun m => (p.1, p.2, m.role)

/-- The row of a joined project; a profile page leaves the address empty. -/
def projectRow (rd : Reading) (url : String → String) (row : Int × Project × ProjectRole) : ProjectRow where
  slug := row.2.1.slug
  name := row.2.1.name
  description := row.2.1.description
  role := row.2.2
  ingestUrl := url row.2.1.slug
  createdAt := rd.projectCreated row.1
  status := projectStatus

def isMember (db : Db) (projectId userId : Int) : Bool :=
  db.memberships.any fun m => m.projectId = projectId ∧ m.userId = userId

section Project

variable (rd : Reading) (db : Db)

/-- Distinct tags of the issues of a project. -/
def projectTagList (projectId : Int) : List String :=
  let tags := (db.issueTags.filter fun t => (Issues.issueIn db projectId t.issueId).isSome).map IssueTag.tag
  (tags.dedup.insertionSort (· ≤ ·)).take 200

def endpointRow (row : Int × Endpoint) : Option EndpointRow :=
  (db.projects.get? row.2.projectId).map fun p =>
    ⟨row.1, row.2.name, row.2.kind, row.2.url, row.2.enabled, p.slug⟩

def keyRow (row : Int × IngestKey) : KeyRow :=
  ⟨row.1, row.2.name, row.2.keyPrefix, rd.keyCreated row.1, row.2.lastUsedAt⟩

def memberRow (m : Membership) : Option MemberRow :=
  (db.users.get? m.userId).map fun u =>
    let sha256 := avatarSha256 db m.userId
    ⟨m.userId, u.email, u.displayName, m.role, sha256, avatarUrl m.userId sha256⟩

def projectKeys (projectId : Int) : List KeyRow :=
  let rows := db.ingestKeys.select fun _ k => k.projectId = projectId ∧ k.revokedAt = none
  rd.descending KeyRow.createdAt (rows.map (keyRow rd))

def projectEndpoints (projectId : Int) : List EndpointRow :=
  let rows := db.endpoints.select fun _ e => e.projectId = projectId
  rd.descending (fun row => rd.endpointCreated row.id) (rows.filterMap (endpointRow db))

def projectMembers (projectId : Int) : List MemberRow :=
  let rows := db.memberships.filter fun m => m.projectId = projectId
  rd.ascending MemberRow.displayName (rows.filterMap (memberRow db))

/-- The index on project and activity time leads to the issues of the project. -/
def projectIssues (projectId : Int) (tags : List String) : List IssueApi.IssueJson :=
  let scan := fun (rows : List (Int × Issue)) =>
    rd.visit (rows.filter fun row => row.2.projectId = projectId)
  IssueApi.fetchIssues scan db projectId tags none 100 0

structure ProjectPageData where
  project : ProjectRow
  issues : List IssueApi.IssueJson
  projectTags : List String
  keys : List KeyRow
  members : List MemberRow
  endpoints : List EndpointRow
  deriving DecidableEq, Repr

/-- Keys, members and endpoints are loaded for those who manage the project. -/
def loadProjectPage (userId projectId : Int) (filterTags : List String) :
    Except AppError ProjectPageData :=
  match (joinedProjects db userId).find? fun row => row.1 = projectId with
  | none => .error (.database .rowNotFound)
  | some row =>
    let canManage := ProjectRole.admin ≤ row.2.2
    .ok {
      project := projectRow rd ingestUrl row
      issues := projectIssues rd db projectId filterTags
      projectTags := projectTagList db projectId
      keys := if canManage then projectKeys rd db projectId else []
      members := if canManage then projectMembers rd db projectId else []
      endpoints := if canManage then projectEndpoints rd db projectId else [] }

end Project

section Users

variable (rd : Reading) (db : Db)

/-- Action phrase of a timeline entry, and the transition that it records. -/
def describeActivity (kind : ActivityKind) (details : Value) :
    String × Option String × Option String :=
  match kind with
  | .comment => ("commented on", none, none)
  | .commentEdited => ("edited a comment on", none, none)
  | .commentDeleted => ("deleted a comment on", none, none)
  | .status =>
    ("changed status on", (details.get "from").bind Value.asStr, (details.get "to").bind Value.asStr)
  | .tags => ("updated tags on", none, none)
  | .regression => ("regression on", none, none)

/-- Join of a timeline entry with its issue and project. -/
def activityJoin (row : Int × Activity) : Option (Int × Activity × Issue × Int × Project) :=
  (db.issues.get? row.2.issueId).bind fun i =>
    (db.projects.get? i.projectId).map fun p => (row.1, row.2, i, i.projectId, p)

def userActivityView (row : Int × Activity × Issue × Int × Project) : UserActivityView :=
  let (id, a, i, _, p) := row
  let (action, statusFrom, statusTo) := describeActivity a.kind a.details
  ⟨id, IssuePage.kindText a.kind, action, statusFrom, statusTo, a.issueId, i.title, p.slug, a.createdAt⟩

/-- The latest activity of a user, in the projects shared with the viewer unless
the viewer sees all. -/
def userActivity (targetId viewerId : Int) (unrestricted : Bool) : List UserActivityView :=
  let rows := (db.activity.select fun _ a => a.userId = some targetId).filterMap (activityJoin db)
  let shown := rows.filter fun row => unrestricted || isMember db row.2.2.2.1 viewerId
  let sorted := shown.insertionSort fun a b =>
    b.2.1.createdAt < a.2.1.createdAt ∨ (a.2.1.createdAt = b.2.1.createdAt ∧ b.1 ≤ a.1)
  (sorted.take 30).map userActivityView

structure ProfilePage where
  profile : UserView
  profileIsInstanceOwner : Bool
  canEditProfile : Bool
  memberSince : Int
  projects : List ProjectRow
  activity : List UserActivityView
  deriving DecidableEq, Repr

/-- The projects of a user that the viewer belongs to as well, or all of them. -/
def profileProjects (targetId viewerId : Int) (unrestricted : Bool) : List ProjectRow :=
  let rows := (joinedProjects db targetId).filter fun row =>
    unrestricted || isMember db row.1 viewerId
  rd.ascending (·.name) (rows.map (projectRow rd fun _ => ""))

def userProfile (viewerId userId : Int) : Except AppError ProfilePage :=
  match userById db userId with
  | none => .error .notFound
  | some profile =>
    let viewerIsOwner := Settings.isInstanceOwner db viewerId
    .ok {
      profile
      profileIsInstanceOwner := Settings.isInstanceOwner db userId
      canEditProfile := userId = viewerId || viewerIsOwner
      memberSince := rd.userCreated userId
      projects := profileProjects rd db userId viewerId viewerIsOwner
      activity := userActivity db userId viewerId viewerIsOwner }

def directoryRow (row : Int × User) : UserDirectoryRow :=
  let sha256 := avatarSha256 db row.1
  { id := row.1
    email := row.2.email
    displayName := row.2.displayName
    createdAt := rd.userCreated row.1
    avatarSha256 := sha256
    projectCount := (db.memberships.filter fun m => m.userId = row.1).length
    avatarUrl := avatarUrl row.1 sha256
    isInstanceOwner := Settings.isInstanceOwner db row.1 }

def apiTokenRow (row : Int × ApiToken) : ApiTokenRow :=
  ⟨row.1, row.2.name, row.2.tokenPrefix, rd.tokenCreated row.1, row.2.lastUsedAt⟩

structure SettingsPage where
  projects : List ProjectRow
  notificationEndpoints : List EndpointRow
  apiTokens : List ApiTokenRow
  deriving DecidableEq, Repr

/-- Projects that the user manages, their endpoints and the user's own tokens. -/
def settingsContext (userId : Int) : SettingsPage :=
  let managed := (joinedProjects db userId).filter fun row => ProjectRole.admin ≤ row.2.2
  let endpoints := db.endpoints.rows.flatMap fun e =>
    (db.memberships.filter fun m =>
      m.projectId = e.2.projectId ∧ m.userId = userId ∧ ProjectRole.admin ≤ m.role).filterMap fun _ =>
        endpointRow db e
  let tokens := db.apiTokens.select fun _ t => t.userId = userId ∧ t.revokedAt = none
  { projects := rd.ascending (·.name) (managed.map (projectRow rd ingestUrl))
    notificationEndpoints := rd.descending (fun row => rd.endpointCreated row.id) endpoints
    apiTokens := rd.descending ApiTokenRow.createdAt (tokens.map (apiTokenRow rd)) }

/-- The live sessions of a user. -/
def userSessions (now userId : Int) (currentSessionHash : String) : List SessionView :=
  let rows := db.sessions.select fun _ s => s.userId = userId ∧ now < s.expiresAt
  rd.descending SessionView.createdAt <| rows.map fun row =>
    ⟨row.1, rd.sessionCreated row.1, row.2.expiresAt, row.2.tokenHash = currentSessionHash⟩

end Users

/-- The routes that show a page. -/
inductive View where
  | projects
  | project (slug : String) (tag : Option String)
  | issue (slug : String) (issueId : Int)
  | settings
  | users
  | userProfile (userId : Int)
  | userSettings (userId : Int)
  deriving DecidableEq, Repr

/-- What a template gets beside the signed-in user. The issue page and its export
are made from the details. -/
inductive Context where
  | projects (projects : List ProjectRow)
  | project (page : ProjectPageData) (filterTags : List String)
  | issue (details : IssueDetails)
  | settings (page : SettingsPage)
  | users (directory : List UserDirectoryRow)
  | user (page : ProfilePage)
  | userSettings (profile : UserView) (isSelf : Bool) (sessions : Option (List SessionView))

section Serve

variable (env : Crates) (r : Rendering) (rd : Reading) (now : Int) (db : Db) (session : Auth.Session)

def projects : List ProjectRow :=
  rd.ascending (·.name) ((joinedProjects db session.userId).map (projectRow rd ingestUrl))

def project (slug : String) (tag : Option String) : Except AppError Context := do
  let projectId ← Auth.requireProjectRole db session.userId slug .viewer
  let filterTags ← IssueApi.filterTags tag
  let page ← loadProjectPage rd db session.userId projectId filterTags
  .ok (.project page filterTags)

/-- Sessions are listed on the user's own page alone. -/
def userSettingsContext (target : UserView) (currentSessionHash : String) : Context :=
  let isSelf := session.userId = target.id
  .userSettings target isSelf
    (if isSelf then some (userSessions rd db now target.id currentSessionHash) else none)

def userSettings (cookie : Option String) (userId : Int) : Except AppError Context := do
  let targetId ← UiForms.requireProfileEditor db session userId
  match userById db targetId with
  | none => .error .notFound
  | some target => .ok (userSettingsContext rd now db session target (Settings.currentHash env cookie))

/-- The page of a signed-in user. -/
def serve (cookie : Option String) : View → Except AppError Context
  | .projects => .ok (.projects (projects rd db session))
  | .project slug tag => project rd db session slug tag
  | .issue slug issueId =>
    (IssuePage.loadIssueDetails env r rd.visit db session.userId slug issueId).map .issue
  | .settings => .ok (.settings (settingsContext rd db session.userId))
  | .users => .ok (.users (db.users.rows.map (directoryRow rd db)))
  | .userProfile userId => (userProfile rd db session.userId userId).map .user
  | .userSettings userId => userSettings env rd now db session cookie userId

/-- The signed-in user as every page shows it, and the page. -/
def page (cookie : Option String) (view : View) : Option UserView × Except AppError Context :=
  (userById db session.userId, serve env r rd now db session cookie view)

end Serve

end Zbierak.Pages
