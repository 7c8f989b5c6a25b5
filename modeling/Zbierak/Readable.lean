import Zbierak.Pages
import Zbierak.Server
import Zbierak.Lib.Views

/-!
# What a user can read

Projects, issues and their history, where the user is a member. Reads that name a
project check the membership and then look no further than these rows: they answer
the same from two stores in which the rows are the same. The JSON API reads
nothing else; the pages do.
-/
namespace Zbierak.Readable

open Pages

/-- Whether the user belongs to the project of the issue. -/
def seesIssue (db : Db) (viewer issueId : Int) : Bool :=
  (db.issues.get? issueId).any fun i => isMember db i.projectId viewer

/-- Events of an issue with the producer ids of their raw bodies. -/
def issueEvents (db : Db) (issueId : Int) : List (String × EventRow) :=
  db.events.flatMap fun e =>
    if e.issueId = issueId then
      (db.rawEvents.filter fun r => r.id = e.id).map fun r => (r.producerEventId, e)
    else []

/-- A comment with the names of its author and of its last editor. -/
structure NamedComment where
  row : Int × Comment
  author : Option String
  editor : Option String

def namedComment (db : Db) (row : Int × Comment) : NamedComment where
  row := row
  author := (db.users.get? row.2.userId).map User.displayName
  editor := (row.2.updatedBy.bind db.users.get?).map User.displayName

/-- What one user may read of a store. -/
structure Rows where
  memberships : List Membership
  projects : List (Int × Project)
  issues : List (Int × Issue)
  tags : List IssueTag
  events : Int → List (String × EventRow)
  comments : List NamedComment

/-- The user's own memberships, and what is in the projects they are for. -/
def readable (viewer : Int) (db : Db) : Rows where
  memberships := db.memberships.filter fun m => m.userId = viewer
  projects := db.projects.select fun id _ => isMember db id viewer
  issues := db.issues.select fun _ i => isMember db i.projectId viewer
  tags := db.issueTags.filter fun t => seesIssue db viewer t.issueId
  events := fun issueId => if seesIssue db viewer issueId then issueEvents db issueId else []
  comments := (db.comments.select fun _ c => seesIssue db viewer c.issueId).map (namedComment db)

section Member

variable {viewer : Int} {db : Db}

theorem isMember_of_mem {m : Membership} (hm : m ∈ db.memberships) (hu : m.userId = viewer) :
    isMember db m.projectId viewer = true := by
  simp only [isMember, List.any_eq_true, decide_eq_true_eq]
  exact ⟨m, hm, rfl, hu⟩

/-- A user's memberships tell where the user is a member. -/
theorem isMember_own (db : Db) (projectId viewer : Int) : isMember db projectId viewer =
    (db.memberships.filter fun m => m.userId = viewer).any fun m => m.projectId = projectId := by
  rw [isMember, List.any_filter]
  congr 1
  funext m
  rw [Bool.decide_and, Bool.and_comm]

/-- Without a membership there are no rows of it. -/
theorem no_memberships {projectId : Int} (hmember : isMember db projectId viewer = false)
    {s : Membership → Bool} (hs : ∀ m, s m = true → m.projectId = projectId ∧ m.userId = viewer) :
    db.memberships.filter s = [] := by
  rw [List.filter_eq_nil_iff]
  intro m hm hsm
  have := hs m hsm
  simp only [isMember, List.any_eq_false, decide_eq_true_eq] at hmember
  exact hmember m hm this

theorem isMember_of_role {projectId : Int} {slug : String}
    (h : Auth.requireProjectRole db viewer slug .viewer = .ok projectId) :
    isMember db projectId viewer = true := by
  obtain ⟨-, role, -, hm⟩ := Auth.requireProjectRole_ok h
  exact isMember_of_mem hm rfl

/-- An issue of a project that the user belongs to. -/
theorem seesIssue_of_issueIn {projectId issueId : Int} (hmember : isMember db projectId viewer = true)
    (hi : (Issues.issueIn db projectId issueId).isSome = true) : seesIssue db viewer issueId = true := by
  obtain ⟨i, hi⟩ := Option.isSome_iff_exists.mp hi
  obtain ⟨hget, rfl⟩ := Issues.issueIn_some.mp hi
  simp [seesIssue, hget, hmember]

end Member

section Alike

variable {viewer : Int} {db db' : Db} (h : readable viewer db = readable viewer db')

include h

theorem alike_projects : (db.projects.select fun id _ => isMember db id viewer) =
    db'.projects.select fun id _ => isMember db' id viewer :=
  congrArg Rows.projects h

theorem alike_issues : (db.issues.select fun _ i => isMember db i.projectId viewer) =
    db'.issues.select fun _ i => isMember db' i.projectId viewer :=
  congrArg Rows.issues h

theorem alike_tags : (db.issueTags.filter fun t => seesIssue db viewer t.issueId) =
    db'.issueTags.filter fun t => seesIssue db' viewer t.issueId :=
  congrArg Rows.tags h

theorem alike_named :
    (db.comments.select fun _ c => seesIssue db viewer c.issueId).map (namedComment db) =
      (db'.comments.select fun _ c => seesIssue db' viewer c.issueId).map (namedComment db') :=
  congrArg Rows.comments h

theorem alike_comments : (db.comments.select fun _ c => seesIssue db viewer c.issueId) =
    db'.comments.select fun _ c => seesIssue db' viewer c.issueId := by
  have hrows := congrArg (List.map NamedComment.row) (alike_named h)
  simpa only [List.map_map, Function.comp_def, namedComment, List.map_id'] using hrows

/-- A comment that the user can read has the same names. -/
theorem named_alike {row : Int × Comment}
    (hrow : row ∈ db.comments.select fun _ c => seesIssue db viewer c.issueId) :
    namedComment db row = namedComment db' row := by
  have hnamed := alike_named h
  rw [← alike_comments h, List.map_inj_left] at hnamed
  exact hnamed row hrow

/-- The user's own memberships are the same. -/
theorem own_memberships {s : Membership → Bool} (hs : ∀ m, s m = true → m.userId = viewer) :
    db.memberships.filter s = db'.memberships.filter s :=
  Views.filter_congr (congrArg Rows.memberships h) (fun m _ hm => decide_eq_true (hs m hm))
    (fun m _ hm => decide_eq_true (hs m hm)) fun _ _ _ _ => rfl

theorem isMember_alike (projectId : Int) : isMember db projectId viewer = isMember db' projectId viewer := by
  have hown : (db.memberships.filter fun m => m.userId = viewer) =
      db'.memberships.filter fun m => m.userId = viewer := congrArg Rows.memberships h
  rw [isMember_own, isMember_own, hown]

/-- Joins of the projects, as far as they are shared. -/
theorem projects_flatMap {β : Type} {f g : Int × Project → List β}
    (hidden : ∀ x, isMember db x.1 viewer = false → f x = [])
    (hidden' : ∀ x, isMember db' x.1 viewer = false → g x = [])
    (same : ∀ x, isMember db x.1 viewer = true → f x = g x) :
    db.projects.rows.flatMap f = db'.projects.rows.flatMap g := by
  exact Views.flatMap_congr_rows (p := fun x : Int × Project => isMember db x.1 viewer)
    (q := fun x : Int × Project => isMember db' x.1 viewer) (alike_projects h) (fun x _ => hidden x)
    (fun x _ => hidden' x) fun x _ => same x

theorem membershipRows_alike (slug : String) :
    Auth.membershipRows db viewer slug = Auth.membershipRows db' viewer slug := by
  refine projects_flatMap h (fun x hx => ?_) (fun x hx => ?_) fun x _ => ?_
  · rw [no_memberships hx (by simp), List.map_nil, ite_self]
  · rw [no_memberships hx (by simp), List.map_nil, ite_self]
  · rw [own_memberships h (by simp)]

theorem requireProjectRole_alike (slug : String) (minimum : ProjectRole) :
    Auth.requireProjectRole db viewer slug minimum =
      Auth.requireProjectRole db' viewer slug minimum := by
  rw [Auth.requireProjectRole, Auth.requireProjectRole, membershipRows_alike h]

theorem issue_alike (issueId : Int) :
    ((db.issues.get? issueId).filter fun i => isMember db i.projectId viewer) =
      (db'.issues.get? issueId).filter fun i => isMember db' i.projectId viewer :=
  Views.get?_filter (alike_issues h) issueId

theorem seesIssue_alike (issueId : Int) : seesIssue db viewer issueId = seesIssue db' viewer issueId := by
  have key : ∀ db : Db, seesIssue db viewer issueId =
      ((db.issues.get? issueId).filter fun i => isMember db i.projectId viewer).isSome := by
    intro db
    rw [seesIssue, Option.isSome_filter]
  rw [key, key, issue_alike h]

section Project

variable {projectId : Int} (hmember : isMember db projectId viewer = true)

include hmember

theorem issueIn_alike (issueId : Int) :
    Issues.issueIn db projectId issueId = Issues.issueIn db' projectId issueId := by
  have key : ∀ db : Db, isMember db projectId viewer = true → Issues.issueIn db projectId issueId =
      ((db.issues.get? issueId).filter fun i => isMember db i.projectId viewer).filter fun i =>
        i.projectId = projectId := by
    intro db hdb
    rw [Option.filter_filter, Issues.issueIn]
    congr 1
    funext i
    by_cases hi : i.projectId = projectId <;> simp [hi, hdb]
  rw [key db hmember, key db' (isMember_alike h projectId ▸ hmember), issue_alike h]

theorem tags_alike {issueId : Int} (hi : (Issues.issueIn db projectId issueId).isSome = true)
    {s : IssueTag → Bool} (hs : ∀ t, s t = true → t.issueId = issueId) :
    db.issueTags.filter s = db'.issueTags.filter s := by
  have hsees := seesIssue_of_issueIn hmember hi
  refine Views.filter_congr (alike_tags h) (fun t _ ht => ?_) (fun t _ ht => ?_) fun _ _ _ _ => rfl
  · rw [hs t ht, hsees]
  · rw [hs t ht, ← seesIssue_alike h, hsees]

theorem tagsForIssue_alike {issueId : Int}
    (hi : (Issues.issueIn db projectId issueId).isSome = true) :
    Issues.tagsForIssue db issueId = Issues.tagsForIssue db' issueId := by
  rw [Issues.tagsForIssue, Issues.tagsForIssue, tags_alike h hmember hi (by simp)]

theorem carriesTags_alike {issueId : Int}
    (hi : (Issues.issueIn db projectId issueId).isSome = true) (tags : List String) :
    IssueApi.carriesTags db issueId tags = IssueApi.carriesTags db' issueId tags := by
  rw [IssueApi.carriesTags, IssueApi.carriesTags,
    tags_alike h hmember hi fun t ht => (of_decide_eq_true ht).1]

/-- A listing of the project's issues, in the order of its index. -/
theorem fetchIssues_alike (rd : Reading) (tags : List String) (status : Option String)
    (limit offset : Nat) :
    IssueApi.fetchIssues (fun rows => rd.visit (rows.filter fun row => row.2.projectId = projectId)) db
        projectId tags status limit offset =
      IssueApi.fetchIssues (fun rows => rd.visit (rows.filter fun row => row.2.projectId = projectId)) db'
        projectId tags status limit offset := by
  have hrows : (db.issues.rows.filter fun row => row.2.projectId = projectId) =
      db'.issues.rows.filter fun row => row.2.projectId = projectId := by
    refine Views.filter_congr (alike_issues h) (fun row _ hrow => ?_) (fun row _ hrow => ?_)
      fun _ _ _ _ => rfl
    · obtain rfl := of_decide_eq_true hrow
      exact hmember
    · obtain rfl := of_decide_eq_true hrow
      exact (isMember_alike h row.2.projectId).symm.trans hmember
  have hin : ∀ row ∈ rd.visit (db.issues.rows.filter fun row => row.2.projectId = projectId),
      (Issues.issueIn db projectId row.1).isSome = true := by
    intro row hrow
    obtain ⟨hrow, hproject⟩ := List.mem_filter.mp ((rd.visit_perm _).mem_iff.mp hrow)
    rw [Issues.issueIn, (Table.get?_eq_some _).mpr hrow, Option.isSome_filter]
    exact hproject
  rw [IssueApi.fetchIssues, IssueApi.fetchIssues, ← hrows]
  -- The rows are the same: first what is shown of one, then which of them are shown.
  refine (List.map_congr_left fun row hrow => ?_).trans
    (congrArg (fun rows : List (Int × Issue) => (((rows.insertionSort fun a b =>
      b.2.lastSeenAt ≤ a.2.lastSeenAt).drop offset).take limit).map (IssueApi.issueJson db'))
      (List.filter_congr fun row hrow => ?_))
  · have hrow := List.mem_of_mem_drop (List.mem_of_mem_take hrow)
    rw [List.mem_insertionSort, List.mem_filter] at hrow
    rw [IssueApi.issueJson, IssueApi.issueJson, tagsForIssue_alike h hmember (hin row hrow.1)]
  · rw [carriesTags_alike h hmember (hin row hrow)]

/-- Rows of one issue in a table of which the user sees those of visible issues. -/
theorem issueRows_alike {ρ : Type} {t u : Table ρ} {issueOf : ρ → Int}
    (hview : t.select (fun _ x => seesIssue db viewer (issueOf x)) =
      u.select fun _ x => seesIssue db' viewer (issueOf x)) {issueId : Int}
    (hi : (Issues.issueIn db projectId issueId).isSome = true) :
    t.select (fun _ x => issueOf x = issueId) = u.select fun _ x => issueOf x = issueId := by
  have hsees := seesIssue_of_issueIn hmember hi
  refine Views.filter_congr hview (fun row _ hrow => ?_) (fun row _ hrow => ?_) fun _ _ _ _ => rfl
  · obtain rfl := of_decide_eq_true hrow
    exact hsees
  · obtain rfl := of_decide_eq_true hrow
    exact (seesIssue_alike h _).symm.trans hsees

theorem issueEvents_alike {issueId : Int} (hi : (Issues.issueIn db projectId issueId).isSome = true) :
    issueEvents db issueId = issueEvents db' issueId := by
  have hsees := seesIssue_of_issueIn hmember hi
  have hevents := congrFun (congrArg Rows.events h) issueId
  simpa only [readable, hsees, ← seesIssue_alike h, if_true] using hevents

end Project

end Alike

end Zbierak.Readable
