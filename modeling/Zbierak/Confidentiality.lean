import Zbierak.Readable

/-!
# What a user can learn from the pages

The rows and columns that are meant for one user, who is not the instance owner,
are collected in a record. Every page is a function of that record: two stores
with the same record show the same pages. What happens in projects that the user
does not belong to leaves the record as it is.
-/
namespace Zbierak.Confidentiality

open Pages Readable
open IssuePage (Rendering avatarUrl)

/-- Public columns of an ingestion key. -/
structure KeyInfo where
  id : Int
  projectId : Int
  name : String
  keyPrefix : String
  lastUsedAt : Option Int
  deriving DecidableEq, Repr

structure EndpointInfo where
  id : Int
  projectId : Int
  name : String
  kind : EndpointKind
  url : String
  enabled : Bool
  deriving DecidableEq, Repr

/-- What one user may see of a store. -/
structure Visible where
  directory : List (Int × String × String)
  avatars : Int → Option String
  projectCounts : Int → Nat
  memberships : List Membership
  projects : List (Int × Project)
  issues : List (Int × Issue)
  tags : List IssueTag
  events : Int → List (String × EventRow)
  comments : List (Int × Comment)
  activity : List (Int × Activity)
  keys : List KeyInfo
  endpoints : List EndpointInfo
  sessions : List (Int × String × Int)
  apiTokens : List (Int × String × String × Option Int)

def manages (db : Db) (projectId viewer : Int) : Bool :=
  db.memberships.any fun m => m.projectId = projectId ∧ m.userId = viewer ∧ ProjectRole.admin ≤ m.role

def keyInfo (row : Int × IngestKey) : KeyInfo :=
  ⟨row.1, row.2.projectId, row.2.name, row.2.keyPrefix, row.2.lastUsedAt⟩

def endpointInfo (row : Int × Endpoint) : EndpointInfo :=
  ⟨row.1, row.2.projectId, row.2.name, row.2.kind, row.2.url, row.2.enabled⟩

/-- Everybody in the directory; projects, issues and their history where the user
is a member; keys and endpoints where the user is an administrator; the user's
own sessions and tokens. -/
def visible (viewer : Int) (db : Db) : Visible where
  directory := db.users.rows.map fun u => (u.1, u.2.email, u.2.displayName)
  avatars := avatarSha256 db
  projectCounts := fun id => (db.memberships.filter fun m => m.userId = id).length
  memberships := db.memberships.filter fun m => isMember db m.projectId viewer
  projects := db.projects.select fun id _ => isMember db id viewer
  issues := db.issues.select fun _ i => isMember db i.projectId viewer
  tags := db.issueTags.filter fun t => seesIssue db viewer t.issueId
  events := fun issueId => if seesIssue db viewer issueId then issueEvents db issueId else []
  comments := db.comments.select fun _ c => seesIssue db viewer c.issueId
  activity := db.activity.select fun _ a => seesIssue db viewer a.issueId
  keys := (db.ingestKeys.select fun _ k => manages db k.projectId viewer ∧ k.revokedAt = none).map keyInfo
  endpoints := (db.endpoints.select fun _ e => manages db e.projectId viewer).map endpointInfo
  sessions := (db.sessions.select fun _ s => s.userId = viewer).map fun s =>
    (s.1, s.2.tokenHash, s.2.expiresAt)
  apiTokens := (db.apiTokens.select fun _ t => t.userId = viewer ∧ t.revokedAt = none).map fun t =>
    (t.1, t.2.name, t.2.tokenPrefix, t.2.lastUsedAt)

section Alike

variable {viewer : Int} {db db' : Db} (h : visible viewer db = visible viewer db')

include h

theorem alike_memberships : (db.memberships.filter fun m => isMember db m.projectId viewer) =
    db'.memberships.filter fun m => isMember db' m.projectId viewer :=
  congrArg Visible.memberships h

theorem alike_activity : (db.activity.select fun _ a => seesIssue db viewer a.issueId) =
    db'.activity.select fun _ a => seesIssue db' viewer a.issueId :=
  congrArg Visible.activity h

theorem alike_directory : (db.users.rows.map fun u => (u.1, u.2.email, u.2.displayName)) =
    db'.users.rows.map fun u => (u.1, u.2.email, u.2.displayName) :=
  congrArg Visible.directory h

theorem avatar_alike (userId : Int) : avatarSha256 db userId = avatarSha256 db' userId :=
  congrFun (congrArg Visible.avatars h) userId

/-- Email and name of a user are in the directory. -/
theorem user_alike (userId : Int) :
    ((db.users.get? userId).map fun u => (u.email, u.displayName)) =
      (db'.users.get? userId).map fun u => (u.email, u.displayName) := by
  have key : ∀ db : Db, ((db.users.get? userId).map fun u => (u.email, u.displayName)) =
      ((db.users.rows.map fun u => (u.1, u.2.email, u.2.displayName)).find? fun x =>
        x.1 = userId).map Prod.snd := by
    intro db
    simp only [Table.get?, List.find?_map, Option.map_map, Function.comp_def]
  rw [key, key, alike_directory h]

/-- Whatever is made of email and name of a user. -/
theorem user_map {β : Type} {f : User → β} (userId : Int)
    (hf : ∀ u v : User, u.email = v.email → u.displayName = v.displayName → f u = f v) :
    (db.users.get? userId).map f = (db'.users.get? userId).map f := by
  have hshown := user_alike h userId
  cases hu : db.users.get? userId with
  | none =>
    rw [hu, Option.map_none, eq_comm, Option.map_eq_none_iff] at hshown
    rw [hshown]
  | some u =>
    rw [hu, Option.map_some, eq_comm, Option.map_eq_some_iff] at hshown
    obtain ⟨v, hv, hshown⟩ := hshown
    obtain ⟨hemail, hname⟩ := Prod.mk.inj hshown
    rw [hv, Option.map_some, Option.map_some, hf u v hemail.symm hname.symm]

theorem actor_alike (userId : Option Int) : (userId.bind db.users.get?).map User.displayName =
    (userId.bind db'.users.get?).map User.displayName := by
  cases userId with
  | none => rfl
  | some userId => exact user_map h userId fun _ _ _ hname => hname

/-- What the user can read is part of it. -/
theorem readable_alike : readable viewer db = readable viewer db' := by
  have hown : (db.memberships.filter fun m => m.userId = viewer) =
      db'.memberships.filter fun m => m.userId = viewer :=
    Views.filter_congr (alike_memberships h) (fun m hm hviewer => isMember_of_mem hm (of_decide_eq_true hviewer))
      (fun m hm hviewer => isMember_of_mem hm (of_decide_eq_true hviewer)) fun _ _ _ _ => rfl
  have hnamed : namedComment db = namedComment db' := by
    funext row
    simp only [namedComment, actor_alike h, user_map h row.2.userId fun _ _ _ hname => hname]
  have hcomments : (db.comments.select fun _ c => seesIssue db viewer c.issueId) =
      db'.comments.select fun _ c => seesIssue db' viewer c.issueId := congrArg Visible.comments h
  simp only [readable, Rows.mk.injEq, hown, hnamed, hcomments, true_and, and_true]
  exact ⟨congrArg Visible.projects h, congrArg Visible.issues h, congrArg Visible.tags h,
    congrArg Visible.events h⟩

/-- All memberships of a shared project are the same. -/
theorem shared_memberships {projectId : Int} (hmember : isMember db projectId viewer = true)
    {s : Membership → Bool} (hs : ∀ m, s m = true → m.projectId = projectId) :
    db.memberships.filter s = db'.memberships.filter s := by
  refine Views.filter_congr (alike_memberships h) (fun m _ hm => ?_) (fun m _ hm => ?_)
    fun _ _ _ _ => rfl
  · rw [hs m hm, hmember]
  · rw [hs m hm, ← isMember_alike (readable_alike h), hmember]

theorem manages_alike (projectId : Int) : manages db projectId viewer = manages db' projectId viewer := by
  have hsame := own_memberships (readable_alike h) (s := fun m =>
    m.projectId = projectId ∧ m.userId = viewer ∧ ProjectRole.admin ≤ m.role) (by
      intro m hm
      simp only [decide_eq_true_eq] at hm
      exact hm.2.1)
  have key : ∀ db : Db, manages db projectId viewer = !(db.memberships.filter fun m =>
      m.projectId = projectId ∧ m.userId = viewer ∧ ProjectRole.admin ≤ m.role).isEmpty := by
    intro db
    rw [manages, Bool.eq_iff_iff]
    simp [List.filter_eq_nil_iff]
  rw [key, key, hsame]

theorem joinedProjects_own : joinedProjects db viewer = joinedProjects db' viewer := by
  refine projects_flatMap (readable_alike h) (fun x hx => ?_) (fun x hx => ?_) fun x _ => ?_
  · rw [no_memberships hx (by simp), List.map_nil]
  · rw [no_memberships hx (by simp), List.map_nil]
  · rw [own_memberships (readable_alike h) (by simp)]

/-- Another user's memberships, in the projects shared with that user. -/
theorem joinedProjects_shared (targetId : Int) :
    ((joinedProjects db targetId).filter fun row => isMember db row.1 viewer) =
      (joinedProjects db' targetId).filter fun row => isMember db' row.1 viewer := by
  have hidden : ∀ (db : Db) (x : Int × Project), isMember db x.1 viewer = false →
      ((db.memberships.filter fun m => m.projectId = x.1 ∧ m.userId = targetId).map fun m =>
        (x.1, x.2, m.role)).filter (fun row => isMember db row.1 viewer) = [] := by
    intro db x hx
    simp [List.filter_map, Function.comp_def, hx]
  rw [joinedProjects, joinedProjects, List.filter_flatMap, List.filter_flatMap]
  refine projects_flatMap (readable_alike h) (hidden db) (hidden db') fun x hx => ?_
  rw [shared_memberships h hx (by simp +contextual)]
  simp only [isMember_alike (readable_alike h)]

/-- A shared project is the same row. -/
theorem project_alike {projectId : Int} (hmember : isMember db projectId viewer = true) :
    db.projects.get? projectId = db'.projects.get? projectId := by
  refine Views.get?_congr (alike_projects (readable_alike h)) (fun _ => hmember) fun _ => ?_
  rw [← isMember_alike (readable_alike h)]
  exact hmember

theorem isInstanceOwner_alike (userId : Int) :
    Settings.isInstanceOwner db userId = Settings.isInstanceOwner db' userId := by
  have hids := congrArg (List.map Prod.fst) (alike_directory h)
  simp only [List.map_map, Function.comp_def] at hids
  rw [Settings.isInstanceOwner, Settings.isInstanceOwner]
  exact congrArg (fun ids => decide (ids.min? = some userId)) hids

theorem userById_alike (userId : Int) : userById db userId = userById db' userId := by
  rw [userById, userById, avatar_alike h]
  exact user_map h userId fun u v hemail hname => by rw [hemail, hname]

section Project

variable {projectId : Int} (hmember : isMember db projectId viewer = true)

include hmember

theorem projectIssues_alike (rd : Reading) (tags : List String) :
    projectIssues rd db projectId tags = projectIssues rd db' projectId tags :=
  fetchIssues_alike (readable_alike h) hmember rd tags none 100 0

theorem projectTagList_alike : projectTagList db projectId = projectTagList db' projectId := by
  have hfilter : (db.issueTags.filter fun t => (Issues.issueIn db projectId t.issueId).isSome) =
      db'.issueTags.filter fun t => (Issues.issueIn db' projectId t.issueId).isSome := by
    refine Views.filter_congr (alike_tags (readable_alike h)) (fun t _ => seesIssue_of_issueIn hmember) (fun t _ ht => ?_)
      fun t _ _ _ => congrArg Option.isSome (issueIn_alike (readable_alike h) hmember t.issueId)
    rw [← seesIssue_alike (readable_alike h)]
    rw [← issueIn_alike (readable_alike h) hmember] at ht
    exact seesIssue_of_issueIn hmember ht
  rw [projectTagList, projectTagList, hfilter]

theorem commentsOf_alike {issueId : Int} (hi : (Issues.issueIn db projectId issueId).isSome = true) :
    IssuePage.commentsOf db issueId = IssuePage.commentsOf db' issueId := by
  rw [IssuePage.commentsOf, IssuePage.commentsOf, issueRows_alike (readable_alike h) hmember (alike_comments (readable_alike h)) hi]

theorem activityRows_alike (env : Crates) {issueId : Int}
    (hi : (Issues.issueIn db projectId issueId).isSome = true) :
    IssuePage.activityRows env db issueId = IssuePage.activityRows env db' issueId := by
  rw [IssuePage.activityRows, IssuePage.activityRows,
    issueRows_alike (readable_alike h) hmember (alike_activity h) hi]
  refine List.map_congr_left fun row _ => ?_
  simp only [actor_alike h]

theorem recentEvents_alike (scan : IssuePage.Scan) {issueId : Int}
    (hi : (Issues.issueIn db projectId issueId).isSome = true) :
    IssuePage.recentEvents scan db issueId = IssuePage.recentEvents scan db' issueId := by
  have hevents := issueEvents_alike (readable_alike h) hmember hi
  rw [issueEvents, issueEvents] at hevents
  rw [IssuePage.recentEvents, IssuePage.recentEvents, hevents]

end Project

theorem commentRow_alike (r : Rendering) (row : Int × Comment) :
    IssuePage.commentRow r db row = IssuePage.commentRow r db' row := by
  have havatar : IssuePage.avatarOf db row.2.userId = IssuePage.avatarOf db' row.2.userId :=
    congrArg (avatarUrl row.2.userId) (avatar_alike h row.2.userId)
  simp only [IssuePage.commentRow, actor_alike h, havatar]
  exact user_map h row.2.userId fun u v _ hname => by rw [hname]

theorem loadIssueDetails_alike (env : Crates) (r : Rendering) (scan : IssuePage.Scan) (slug : String)
    (issueId : Int) : IssuePage.loadIssueDetails env r scan db viewer slug issueId =
      IssuePage.loadIssueDetails env r scan db' viewer slug issueId := by
  rw [IssuePage.loadIssueDetails, IssuePage.loadIssueDetails, ← requireProjectRole_alike (readable_alike h)]
  cases hrole : Auth.requireProjectRole db viewer slug .viewer with
  | error e => rfl
  | ok projectId =>
    have hmember := isMember_of_role hrole
    have hrole : Auth.membershipRole db projectId viewer = Auth.membershipRole db' projectId viewer := by
      rw [Auth.membershipRole, Auth.membershipRole, ← List.head?_filter, ← List.head?_filter,
        own_memberships (readable_alike h) (by simp +contextual)]
    simp only [bind, Except.bind, ← project_alike h hmember, ← hrole, ← issueIn_alike (readable_alike h) hmember]
    cases db.projects.get? projectId with
    | none => rfl
    | some p =>
      cases Auth.membershipRole db projectId viewer with
      | none => rfl
      | some role =>
        cases hi : Issues.issueIn db projectId issueId with
        | none => rfl
        | some i =>
          have hsome : (Issues.issueIn db projectId issueId).isSome = true := by rw [hi]; rfl
          simp only [recentEvents_alike h hmember scan hsome, commentsOf_alike h hmember hsome,
            activityRows_alike h hmember env hsome, IssuePage.issueValue,
            tagsForIssue_alike (readable_alike h) hmember hsome, funext (commentRow_alike h r)]

theorem memberRow_alike (m : Membership) : memberRow db m = memberRow db' m := by
  simp only [memberRow, avatar_alike h]
  exact user_map h m.userId fun u v hemail hname => by rw [hemail, hname]

omit h in
theorem isMember_of_manages {db : Db} {projectId : Int} (hmanages : manages db projectId viewer = true) :
    isMember db projectId viewer = true := by
  simp only [manages, isMember, List.any_eq_true, decide_eq_true_eq] at *
  obtain ⟨m, hm, hp, hu, -⟩ := hmanages
  exact ⟨m, hm, hp, hu⟩

/-- An endpoint of a project that the user manages. -/
theorem endpointRow_alike {x y : Int × Endpoint} (hmanages : manages db x.2.projectId viewer = true)
    (hkey : endpointInfo x = endpointInfo y) : endpointRow db x = endpointRow db' y := by
  simp only [endpointInfo, EndpointInfo.mk.injEq] at hkey
  obtain ⟨hid, hproject, hname, hkind, hurl, henabled⟩ := hkey
  simp only [endpointRow, ← hid, ← hproject, ← hname, ← hkind, ← hurl, ← henabled,
    project_alike h (isMember_of_manages hmanages)]

section Managed

variable {projectId : Int} (hmanages : manages db projectId viewer = true)

include hmanages

theorem projectKeys_alike (rd : Reading) : projectKeys rd db projectId = projectKeys rd db' projectId := by
  have hrows : (db.ingestKeys.select fun _ k => k.projectId = projectId ∧ k.revokedAt = none).map keyInfo =
      (db'.ingestKeys.select fun _ k => k.projectId = projectId ∧ k.revokedAt = none).map keyInfo := by
    refine Views.map_filter_congr (congrArg Visible.keys h) (fun x _ hx => ?_) (fun x _ hx => ?_)
      fun x y hx hy hkey => ?_
    · obtain ⟨rfl, hlive⟩ := of_decide_eq_true hx
      exact decide_eq_true ⟨hmanages, hlive⟩
    · obtain ⟨rfl, hlive⟩ := of_decide_eq_true hx
      exact decide_eq_true ⟨(manages_alike h _).symm.trans hmanages, hlive⟩
    · have hproject : x.2.projectId = y.2.projectId := congrArg KeyInfo.projectId hkey
      simp only [hproject, (of_decide_eq_true hx).2, (of_decide_eq_true hy).2]
  have hshown := congrArg (List.map fun k : KeyInfo =>
    (⟨k.id, k.name, k.keyPrefix, rd.keyCreated k.id, k.lastUsedAt⟩ : KeyRow)) hrows
  rw [List.map_map, List.map_map] at hshown
  exact congrArg (rd.descending KeyRow.createdAt) hshown

theorem projectEndpoints_alike (rd : Reading) :
    projectEndpoints rd db projectId = projectEndpoints rd db' projectId := by
  have hrows : (db.endpoints.select fun _ e => e.projectId = projectId).map endpointInfo =
      (db'.endpoints.select fun _ e => e.projectId = projectId).map endpointInfo := by
    refine Views.map_filter_congr (congrArg Visible.endpoints h) (fun x _ hx => ?_) (fun x _ hx => ?_)
      fun x y _ _ hkey => ?_
    · obtain rfl := of_decide_eq_true hx
      exact hmanages
    · obtain rfl := of_decide_eq_true hx
      exact (manages_alike h _).symm.trans hmanages
    · have hproject : x.2.projectId = y.2.projectId := congrArg EndpointInfo.projectId hkey
      simp only [hproject]
  rw [projectEndpoints, projectEndpoints, List.filterMap_eq_flatMap_toList,
    List.filterMap_eq_flatMap_toList]
  refine congrArg _ (Views.flatMap_keys hrows fun x hx y _ hkey => ?_)
  obtain rfl := of_decide_eq_true (List.mem_filter.mp hx).2
  rw [endpointRow_alike h hmanages hkey]

theorem projectMembers_alike (rd : Reading) :
    projectMembers rd db projectId = projectMembers rd db' projectId := by
  rw [projectMembers, projectMembers,
    shared_memberships h (isMember_of_manages hmanages) fun m hm => of_decide_eq_true hm,
    funext (memberRow_alike h)]

end Managed

omit h in
/-- A row of the user's own projects is a membership in a project. -/
theorem mem_joinedProjects {db : Db} {userId : Int} {row : Int × Project × ProjectRole}
    (hrow : row ∈ joinedProjects db userId) : ⟨row.1, userId, row.2.2⟩ ∈ db.memberships := by
  obtain ⟨p, -, hrow⟩ := List.mem_flatMap.mp hrow
  obtain ⟨m, hm, rfl⟩ := List.mem_map.mp hrow
  obtain ⟨hm, hmatch⟩ := List.mem_filter.mp hm
  obtain ⟨hproject, huser⟩ := of_decide_eq_true hmatch
  rw [← hproject, ← huser]
  exact hm

theorem loadProjectPage_alike (rd : Reading) (projectId : Int) (tags : List String) :
    loadProjectPage rd db viewer projectId tags = loadProjectPage rd db' viewer projectId tags := by
  rw [loadProjectPage, loadProjectPage, ← joinedProjects_own h]
  cases hrow : (joinedProjects db viewer).find? fun row => row.1 = projectId with
  | none => rfl
  | some row =>
    have hid := List.find?_some hrow
    simp only [decide_eq_true_eq] at hid
    subst hid
    have hm := mem_joinedProjects (List.mem_of_find?_eq_some hrow)
    have hmember : isMember db row.1 viewer = true := isMember_of_mem hm rfl
    simp only [projectIssues_alike h hmember, projectTagList_alike h hmember]
    by_cases hrole : ProjectRole.admin ≤ row.2.2
    · have hmanages : manages db row.1 viewer = true := by
        simp only [manages, List.any_eq_true, decide_eq_true_eq]
        exact ⟨_, hm, rfl, rfl, hrole⟩
      simp only [if_pos hrole, projectKeys_alike h hmanages, projectEndpoints_alike h hmanages,
        projectMembers_alike h hmanages]
    · simp only [if_neg hrole]

theorem settingsContext_alike (rd : Reading) :
    settingsContext rd db viewer = settingsContext rd db' viewer := by
  have hendpoints : (db.endpoints.rows.flatMap fun e => (db.memberships.filter fun m =>
        m.projectId = e.2.projectId ∧ m.userId = viewer ∧ ProjectRole.admin ≤ m.role).filterMap fun _ =>
          endpointRow db e) =
      db'.endpoints.rows.flatMap fun e => (db'.memberships.filter fun m =>
        m.projectId = e.2.projectId ∧ m.userId = viewer ∧ ProjectRole.admin ≤ m.role).filterMap fun _ =>
          endpointRow db' e := by
    have hidden : ∀ (db : Db) (e : Int × Endpoint), manages db e.2.projectId viewer = false →
        (db.memberships.filter fun m => m.projectId = e.2.projectId ∧ m.userId = viewer ∧
          ProjectRole.admin ≤ m.role) = [] := by
      intro db e he
      rw [List.filter_eq_nil_iff]
      simpa [manages] using he
    refine Views.flatMap_congr (congrArg Visible.endpoints h) (fun e _ he => ?_) (fun e _ he => ?_)
      fun x y _ hx _ _ hkey => ?_
    · rw [hidden db e he, List.filterMap_nil]
    · rw [hidden db' e he, List.filterMap_nil]
    · have hproject : x.2.projectId = y.2.projectId := congrArg EndpointInfo.projectId hkey
      rw [endpointRow_alike h hx hkey, hproject,
        own_memberships (readable_alike h) fun m hm => (of_decide_eq_true hm).2.1]
  have htokens : (db.apiTokens.select fun _ t => t.userId = viewer ∧ t.revokedAt = none).map
        (apiTokenRow rd) =
      (db'.apiTokens.select fun _ t => t.userId = viewer ∧ t.revokedAt = none).map (apiTokenRow rd) := by
    have hshown := congrArg (List.map fun t : Int × String × String × Option Int =>
      (⟨t.1, t.2.1, t.2.2.1, rd.tokenCreated t.1, t.2.2.2⟩ : ApiTokenRow))
      (congrArg Visible.apiTokens h)
    simp only [visible, List.map_map] at hshown
    exact hshown
  simp only [settingsContext, joinedProjects_own h, hendpoints, htokens]

theorem userActivity_alike (targetId : Int) :
    userActivity db targetId viewer false = userActivity db' targetId viewer false := by
  have hrows : ((db.activity.select fun _ a => a.userId = some targetId).filterMap
        (activityJoin db)).filter (fun row => isMember db row.2.2.2.1 viewer) =
      ((db'.activity.select fun _ a => a.userId = some targetId).filterMap
        (activityJoin db')).filter fun row => isMember db' row.2.2.2.1 viewer := by
    rw [List.filter_filterMap, List.filter_filterMap]
    -- A row that the user does not see has no issue, or one of a foreign project.
    have hidden : ∀ (db : Db) (row : Int × Activity), seesIssue db viewer row.2.issueId = false →
        (activityJoin db row).filter (fun row => isMember db row.2.2.2.1 viewer) = none := by
      intro db row hrow
      rw [activityJoin]
      cases hi : db.issues.get? row.2.issueId with
      | none => rfl
      | some i =>
        rw [seesIssue, hi, Option.any_some] at hrow
        cases hp : db.projects.get? i.projectId with
        | none => simp [hp]
        | some p => simp [hp, hrow]
    refine Views.filterMap_congr (p := fun row : Int × Activity => seesIssue db viewer row.2.issueId)
      (q := fun row : Int × Activity => seesIssue db' viewer row.2.issueId) ?_
      (fun row _ => hidden db row) (fun row _ => hidden db' row) fun row _ hrow => ?_
    · have hview := congrArg (List.filter fun row => row.2.userId = some targetId) (alike_activity h)
      simpa only [Table.select, List.filter_filter, Bool.and_comm] using hview
    · simp only [seesIssue, Option.any_eq_true] at hrow
      obtain ⟨i, hi, hmember⟩ := hrow
      have hi' : db'.issues.get? row.2.issueId = some i := by
        have hissue := issue_alike (readable_alike h) row.2.issueId
        rw [hi, Option.filter_some, if_pos hmember, eq_comm, Option.filter_eq_some_iff] at hissue
        exact hissue.1
      simp only [activityJoin, hi, hi', Option.bind_some, project_alike h hmember, isMember_alike (readable_alike h)]
  simp only [userActivity, Bool.false_or, hrows]

theorem userProfile_alike (rd : Reading) (howner : Settings.isInstanceOwner db viewer = false)
    (userId : Int) : userProfile rd db viewer userId = userProfile rd db' viewer userId := by
  have howner' := howner
  rw [isInstanceOwner_alike h] at howner'
  rw [userProfile, userProfile, userById_alike h]
  cases userById db' userId with
  | none => rfl
  | some profile =>
    simp only [howner, howner', isInstanceOwner_alike h userId, profileProjects, Bool.false_or,
      joinedProjects_shared h, userActivity_alike h]

theorem users_alike (rd : Reading) :
    db.users.rows.map (directoryRow rd db) = db'.users.rows.map (directoryRow rd db') := by
  have hcount := congrArg Visible.projectCounts h
  have hrow : ∀ x y : Int × User, (x.1, x.2.email, x.2.displayName) = (y.1, y.2.email, y.2.displayName) →
      directoryRow rd db x = directoryRow rd db' y := by
    intro x y hxy
    simp only [Prod.mk.injEq] at hxy
    obtain ⟨hid, hemail, hname⟩ := hxy
    have hcount := congrFun hcount y.1
    simp only [visible] at hcount
    simp only [directoryRow, hid, hemail, hname, avatar_alike h, isInstanceOwner_alike h, hcount]
  rw [List.map_eq_flatMap, List.map_eq_flatMap]
  exact Views.flatMap_keys (alike_directory h) fun x _ y _ hxy => by rw [hrow x y hxy]

theorem userSessions_alike (rd : Reading) (now : Int) (current : String) :
    userSessions rd db now viewer current = userSessions rd db' now viewer current := by
  have hrows : (db.sessions.select fun _ s => s.userId = viewer ∧ now < s.expiresAt).map
        (fun s => (s.1, s.2.tokenHash, s.2.expiresAt)) =
      (db'.sessions.select fun _ s => s.userId = viewer ∧ now < s.expiresAt).map
        fun s => (s.1, s.2.tokenHash, s.2.expiresAt) := by
    refine Views.map_filter_congr (congrArg Visible.sessions h) (fun x _ hx => ?_) (fun x _ hx => ?_)
      fun x y hx hy hkey => ?_
    · exact decide_eq_true (of_decide_eq_true hx).1
    · exact decide_eq_true (of_decide_eq_true hx).1
    · simp only [Prod.mk.injEq] at hkey
      simp only [of_decide_eq_true hx, of_decide_eq_true hy, hkey.2.2]
  have hshown := congrArg (List.map fun s : Int × String × Int =>
    (⟨s.1, rd.sessionCreated s.1, s.2.2, s.2.1 = current⟩ : SessionView)) hrows
  rw [List.map_map, List.map_map] at hshown
  exact congrArg (rd.descending SessionView.createdAt) hshown

theorem requireProfileEditor_alike (csrfToken : String) (userId : Int) :
    UiForms.requireProfileEditor db ⟨viewer, csrfToken⟩ userId =
      UiForms.requireProfileEditor db' ⟨viewer, csrfToken⟩ userId := by
  have hexists := user_map h (f := fun _ => ()) userId fun _ _ _ _ => rfl
  rw [UiForms.requireProfileEditor, UiForms.requireProfileEditor, isInstanceOwner_alike h]
  cases hu : db.users.get? userId with
  | none =>
    rw [hu, Option.map_none, eq_comm, Option.map_eq_none_iff] at hexists
    rw [hexists]
  | some u =>
    rw [hu, Option.map_some, eq_comm, Option.map_eq_some_iff] at hexists
    obtain ⟨v, hv, -⟩ := hexists
    rw [hv]

theorem userSettingsContext_alike (rd : Reading) (now : Int) (csrfToken : String) (target : UserView)
    (current : String) : userSettingsContext rd now db ⟨viewer, csrfToken⟩ target current =
      userSettingsContext rd now db' ⟨viewer, csrfToken⟩ target current := by
  by_cases hself : viewer = target.id
  · have hsessions := userSessions_alike h rd now current
    rw [hself] at hsessions
    simp only [userSettingsContext, hsessions]
  · simp only [userSettingsContext, if_neg hself]

end Alike

theorem serve_alike {viewer : Int} {db db' : Db} (h : visible viewer db = visible viewer db')
    (howner : Settings.isInstanceOwner db viewer = false) (env : Crates) (r : Rendering) (rd : Reading)
    (now : Int) (csrfToken : String) (cookie : Option String) (view : View) :
    serve env r rd now db ⟨viewer, csrfToken⟩ cookie view =
      serve env r rd now db' ⟨viewer, csrfToken⟩ cookie view := by
  cases view with
  | projects => simp only [serve, projects, joinedProjects_own h]
  | project slug tag =>
    simp only [serve, project, requireProjectRole_alike (readable_alike h), loadProjectPage_alike h]
  | issue slug issueId => simp only [serve, loadIssueDetails_alike h]
  | settings => simp only [serve, settingsContext_alike h]
  | users => simp only [serve, users_alike h]
  | userProfile userId => simp only [serve, userProfile_alike h rd howner]
  | userSettings userId =>
    simp only [serve, userSettings, requireProfileEditor_alike h, userById_alike h,
      userSettingsContext_alike h]

/-- Two stores in which a user may see the same show that user the same pages, and
export the same documents. -/
theorem pages_confidential {viewer : Int} {db db' : Db} (h : visible viewer db = visible viewer db')
    (howner : Settings.isInstanceOwner db viewer = false) (env : Crates) (r : Rendering) (rd : Reading)
    (now : Int) (csrfToken : String) (cookie : Option String) :
    (∀ view, page env r rd now db ⟨viewer, csrfToken⟩ cookie view =
      page env r rd now db' ⟨viewer, csrfToken⟩ cookie view) ∧
    ∀ slug issueId, IssuePage.exportIssueMarkdown env r rd.visit db ⟨viewer, csrfToken⟩ slug issueId =
      IssuePage.exportIssueMarkdown env r rd.visit db' ⟨viewer, csrfToken⟩ slug issueId := by
  refine ⟨fun view => Prod.ext (userById_alike h viewer)
    (serve_alike h howner env r rd now csrfToken cookie view), fun slug issueId => ?_⟩
  rw [IssuePage.exportIssueMarkdown, IssuePage.exportIssueMarkdown]
  exact congrArg _ (loadIssueDetails_alike h env r rd.visit slug issueId)

/-- Bob works on "demo" and has no part in "other", which Ada keeps to herself. -/
def Sample.store (adaHash bobHash keyHash secret comment : String) : Db :=
  { Db.empty with
    users := (Table.empty.insert ⟨"ada@example.org", "Ada", adaHash⟩).insert
      ⟨"bob@example.org", "Bob", bobHash⟩
    projects := (Table.empty.insert ⟨"demo", "Demo", "", 1⟩).insert ⟨"other", "Other", "", 1⟩
    memberships := [⟨1, 1, .owner⟩, ⟨1, 2, .developer⟩, ⟨2, 1, .owner⟩]
    ingestKeys := Table.empty.insert ⟨1, "ci", "zbk_01234567", keyHash, 1, none, none⟩
    issues := Table.empty.insert ⟨2, "f", "m", .unresolved, 1, 0, 0⟩
    comments := Table.empty.insert ⟨1, 1, comment, 0, none, none, none⟩
    endpoints := Table.empty.insert ⟨1, "hook", .webhook, "https://hooks.example/in", some secret, 0, true, 1⟩ }

def Sample.reading : Reading where
  userCreated _ := 0
  projectCreated _ := 0
  keyCreated _ := 0
  endpointCreated _ := 0
  tokenCreated _ := 0
  sessionCreated _ := 0
  visit rows := rows
  visit_perm := List.Perm.refl

def Sample.rendering : Rendering := ⟨fun value => value.isSome, id, toString⟩

/-- Passwords, keys, secrets and comments of the other project do not show. -/
theorem pages_confidential_bob :
    page Sample.crates Sample.rendering Sample.reading 0 (Sample.store "p" "q" "k" "s" "ours")
        ⟨2, "csrf"⟩ none (.project "demo" none) =
      page Sample.crates Sample.rendering Sample.reading 0 (Sample.store "P" "Q" "K" "S" "theirs")
        ⟨2, "csrf"⟩ none (.project "demo" none) :=
  (@pages_confidential 2 (Sample.store "p" "q" "k" "s" "ours") (Sample.store "P" "Q" "K" "S" "theirs")
    rfl (by decide) Sample.crates Sample.rendering Sample.reading 0 "csrf" none).1 _

end Zbierak.Confidentiality
