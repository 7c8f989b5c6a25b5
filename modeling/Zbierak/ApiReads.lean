import Zbierak.Bystander
import Zbierak.References

/-!
# What a token may read

The JSON routes answer from the store on behalf of the user whose token the
request carries. What they answer is made of what that user can read, so that
nothing others do elsewhere shows. Accounts, avatars, keys, webhooks and the
members of a project do not show at all, unless they give a comment its name.
-/
namespace Zbierak.ApiReads

open Bystander Pages Readable Reference Server
open IssueApi (EventListQuery IssueListQuery Response)

/-- The routes that read. -/
inductive Query where
  | issues (slug : String) (query : IssueListQuery)
  | issue (slug : String) (issueId : Int)
  | events (slug : String) (issueId : Int) (query : EventListQuery)
  | comments (slug : String) (issueId : Int)

/-- The index on project and activity time leads to the issues of the project. -/
def projectScan (rd : Reading) (db : Db) (userId : Int) (slug : String)
    (rows : List (Int × Issue)) : List (Int × Issue) :=
  match Auth.requireProjectRole db userId slug .viewer with
  | .ok projectId => rd.visit (rows.filter fun row => row.2.projectId = projectId)
  | .error _ => rows

def answer (env : Crates) (rd : Reading) (db : Db) (userId : Int) : Query → Except AppError Response
  | .issues slug query => IssueApi.listIssues (projectScan rd db userId slug) db userId slug query
  | .issue slug issueId => IssueApi.getIssue db userId slug issueId
  | .events slug issueId query => IssueApi.listIssueEvents env db userId slug issueId query
  | .comments slug issueId => IssueApi.listComments db userId slug issueId

section Alike

variable {viewer : Int} {db db' : Db} (h : readable viewer db = readable viewer db')

include h

theorem eventRows_alike {projectId issueId : Int} (hmember : isMember db projectId viewer = true)
    (hi : (Issues.issueIn db projectId issueId).isSome = true) :
    IssueApi.eventRows db issueId = IssueApi.eventRows db' issueId := by
  have hevents := issueEvents_alike h hmember hi
  rw [issueEvents, issueEvents] at hevents
  rw [IssueApi.eventRows, IssueApi.eventRows, hevents]

theorem listIssues_alike (rd : Reading) (slug : String) (query : IssueListQuery) :
    IssueApi.listIssues (projectScan rd db viewer slug) db viewer slug query =
      IssueApi.listIssues (projectScan rd db' viewer slug) db' viewer slug query := by
  have hrole := requireProjectRole_alike h slug .viewer
  have hscan : projectScan rd db viewer slug = projectScan rd db' viewer slug := by
    funext rows
    rw [projectScan, projectScan, hrole]
  rw [IssueApi.listIssues, IssueApi.listIssues, ← hrole, ← hscan]
  cases hproject : Auth.requireProjectRole db viewer slug .viewer with
  | error e => rfl
  | ok projectId =>
    have hfetch : ∀ tags, IssueApi.fetchIssues (projectScan rd db viewer slug) db projectId tags
          query.status (query.limit.getD 50) (query.offset.getD 0) =
        IssueApi.fetchIssues (projectScan rd db viewer slug) db' projectId tags query.status
          (query.limit.getD 50) (query.offset.getD 0) := by
      intro tags
      have hlocal : projectScan rd db viewer slug =
          fun rows => rd.visit (rows.filter fun row => row.2.projectId = projectId) := by
        funext rows
        rw [projectScan, hproject]
      rw [hlocal]
      exact fetchIssues_alike h (isMember_of_role hproject) rd tags _ _ _
    simp only [bind, Except.bind, hfetch]

theorem getIssue_alike (slug : String) (issueId : Int) :
    IssueApi.getIssue db viewer slug issueId = IssueApi.getIssue db' viewer slug issueId := by
  rw [IssueApi.getIssue, IssueApi.getIssue, ← requireProjectRole_alike h slug .viewer]
  cases hproject : Auth.requireProjectRole db viewer slug .viewer with
  | error e => rfl
  | ok projectId =>
    have hmember := isMember_of_role hproject
    simp only [bind, Except.bind, ← issueIn_alike h hmember]
    cases hi : Issues.issueIn db projectId issueId with
    | none => rfl
    | some i =>
      have htags := tagsForIssue_alike h hmember (Option.isSome_of_eq_some hi)
      simp only [IssueApi.issueJson, htags]

theorem listIssueEvents_alike (env : Crates) (slug : String) (issueId : Int) (query : EventListQuery) :
    IssueApi.listIssueEvents env db viewer slug issueId query =
      IssueApi.listIssueEvents env db' viewer slug issueId query := by
  rw [IssueApi.listIssueEvents, IssueApi.listIssueEvents, ← requireProjectRole_alike h slug .viewer]
  cases hproject : Auth.requireProjectRole db viewer slug .viewer with
  | error e => rfl
  | ok projectId =>
    have hmember := isMember_of_role hproject
    simp only [bind, Except.bind, ← issueIn_alike h hmember]
    cases hi : Issues.issueIn db projectId issueId with
    | none => rfl
    | some i => simp only [eventRows_alike h hmember (Option.isSome_of_eq_some hi)]

omit h in
/-- A comment is answered as it is named. -/
theorem commentJson_named (db : Db) (row : Int × Comment) : IssueApi.commentJson db row =
    (namedComment db row).author.map fun author => {
      id := row.1
      author
      userId := row.2.userId
      body := if row.2.deletedAt.isSome then none else some row.2.body
      createdAt := row.2.createdAt
      updatedAt := row.2.updatedAt
      updatedBy := (namedComment db row).editor
      deletedAt := row.2.deletedAt } := by
  rw [IssueApi.commentJson, namedComment, Option.map_map]
  rfl

theorem listComments_alike (slug : String) (issueId : Int) :
    IssueApi.listComments db viewer slug issueId = IssueApi.listComments db' viewer slug issueId := by
  rw [IssueApi.listComments, IssueApi.listComments, ← requireProjectRole_alike h slug .viewer]
  cases hproject : Auth.requireProjectRole db viewer slug .viewer with
  | error e => rfl
  | ok projectId =>
    have hmember := isMember_of_role hproject
    simp only [bind, Except.bind, ← issueIn_alike h hmember]
    cases hi : Issues.issueIn db projectId issueId with
    | none => rfl
    | some i =>
      have hsome := Option.isSome_of_eq_some hi
      have hrows := issueRows_alike h hmember (alike_comments h) hsome
      have hjson : ∀ row ∈ db.comments.select fun _ c => c.issueId = issueId,
          IssueApi.commentJson db row = IssueApi.commentJson db' row := by
        intro row hrow
        have hissue := of_decide_eq_true (List.mem_filter.mp hrow).2
        rw [commentJson_named, commentJson_named, named_alike h]
        refine List.mem_filter.mpr ⟨(List.mem_filter.mp hrow).1, ?_⟩
        dsimp only
        rw [hissue]
        exact seesIssue_of_issueIn hmember hsome
      rw [← hrows]
      refine congrArg (fun comments => Except.ok (Response.comments comments))
        (List.filterMap_congr fun row hrow => hjson row ?_)
      exact (List.mem_insertionSort _).mp hrow

theorem answer_alike (env : Crates) (rd : Reading) (query : Query) :
    answer env rd db viewer query = answer env rd db' viewer query := by
  cases query with
  | issues slug query => exact listIssues_alike h rd slug query
  | issue slug issueId => exact getIssue_alike h slug issueId
  | events slug issueId query => exact listIssueEvents_alike h env slug issueId query
  | comments slug issueId => exact listComments_alike h slug issueId

end Alike

/-- The account is neither author nor last editor of a comment that the user can
read. -/
def Unnamed (viewer : Int) (db : Db) (userId : Int) : Prop :=
  ∀ id c, db.comments.get? id = some c → seesIssue db viewer c.issueId = true →
    c.userId ≠ userId ∧ c.updatedBy ≠ some userId

/-- Operations that do not show in the user's answers: on issues, in projects of
others; on members, for other accounts; on names, of accounts that no comment
shows. Everything else may be the user's own. -/
def Foreign (viewer : Int) (db : Db) : Op → Prop
  | .request (.ingest req _ _) => isMember db req.projectId viewer = false
  | .request (.setIssueStatus projectId _ _ _) | .request (.replaceIssueTags projectId _ _ _)
  | .request (.insertComment projectId _ _ _) | .request (.updateComment projectId _ _ _ _)
  | .request (.deleteComment projectId _ _ _) => isMember db projectId viewer = false
  | .request (.createProject session _) => session.userId ≠ viewer
  | .request (.writeMember request _) => Projects.targetUser db request.form ≠ viewer
  | .request (.account (.updateProfile _ targetId _)) => Unnamed viewer db targetId
  | _ => True

/-- The foreign keys of what the user can read. -/
structure Founded (viewer : Int) (db : Db) : Prop where
  projects : ∀ m ∈ db.memberships, m.userId = viewer → Has db.projects m.projectId
  authors : ∀ id c, db.comments.get? id = some c → seesIssue db viewer c.issueId = true →
    Has db.users c.userId ∧ ∀ userId ∈ c.updatedBy, Has db.users userId

/-- Nothing that the user can read differs. -/
structure Unread (viewer : Int) (db db' : Db) : Prop extends Hidden viewer db db' where
  memberships : (db'.memberships.filter fun m => m.userId = viewer) =
    db.memberships.filter fun m => m.userId = viewer
  projects : (db'.projects.select fun id _ => isMember db id viewer) =
    db.projects.select fun id _ => isMember db id viewer
  names : ∀ id c, db.comments.get? id = some c → seesIssue db viewer c.issueId = true →
    namedComment db' (id, c) = namedComment db (id, c)

section Writes

variable {viewer : Int} {db db' : Db}

theorem Unread.refl (viewer : Int) (db : Db) : Unread viewer db db :=
  ⟨.refl viewer db, rfl, rfl, fun _ _ _ _ => rfl⟩

theorem founded_of_intact (h : ∀ t, References.Intact db t) : Founded viewer db where
  projects m hm _ := (h .memberships).1 m hm m.projectId rfl
  authors id c hc _ := by
    have hrow := db.comments.get?_eq_some.mp hc
    exact ⟨(h .comments).2.1 _ hrow c.userId rfl, (h .comments).2.2 _ hrow⟩

theorem Unread.isMember_eq (h : Unread viewer db db') (projectId : Int) :
    isMember db' projectId viewer = isMember db projectId viewer := by
  rw [isMember_own, isMember_own, h.memberships]

theorem Unread.readable (h : Unread viewer db db') : readable viewer db' = readable viewer db := by
  have hcomments : (db.comments.select fun _ c => seesIssue db viewer c.issueId).map (namedComment db') =
      (db.comments.select fun _ c => seesIssue db viewer c.issueId).map (namedComment db) := by
    refine List.map_congr_left fun row hrow => ?_
    obtain ⟨hc, hsees⟩ := (db.comments.mem_select _).mp hrow
    exact h.names row.1 row.2 hc hsees
  simp only [Readable.readable, h.isMember_eq, h.sees, h.memberships, h.projects, h.issues, h.tags,
    h.shownEvents, h.comments, hcomments]

theorem Founded.unread (h : Founded viewer db) (hsame : Unread viewer db db') : Founded viewer db' where
  projects m hm hviewer := by
    have hold : m ∈ db.memberships.filter fun m => m.userId = viewer := by
      rw [← hsame.memberships]
      exact List.mem_filter.mpr ⟨hm, decide_eq_true hviewer⟩
    have hm := (List.mem_filter.mp hold).1
    obtain ⟨p, hp⟩ := Option.isSome_iff_exists.mp (h.projects m hm hviewer)
    have hrow : (m.projectId, p) ∈ db.projects.select fun id _ => isMember db id viewer :=
      (db.projects.mem_select _).mpr ⟨hp, isMember_of_mem hm hviewer⟩
    rw [← hsame.projects, Table.mem_select] at hrow
    exact has_of_get? hrow.1
  authors id c hc hsees := by
    rw [hsame.sees] at hsees
    have hrow : (id, c) ∈ db'.comments.select fun _ c => seesIssue db viewer c.issueId :=
      (db'.comments.mem_select _).mpr ⟨hc, hsees⟩
    rw [hsame.comments, Table.mem_select] at hrow
    obtain ⟨hauthor, heditor⟩ := h.authors id c hrow.1 hsees
    have hnames := hsame.names id c hrow.1 hsees
    simp only [namedComment, NamedComment.mk.injEq, true_and] at hnames
    refine ⟨?_, ?_⟩
    · rw [Has, ← Option.isSome_map (f := User.displayName), hnames.1, Option.isSome_map]
      exact hauthor
    · rintro userId huser
      have hnames := hnames.2
      rw [Option.mem_def.mp huser, Option.bind_some, Option.bind_some] at hnames
      rw [Has, ← Option.isSome_map (f := User.displayName), hnames, Option.isSome_map]
      exact heditor userId huser

/-- Users whose names show keep them. -/
def KeepsNames (viewer : Int) (db db' : Db) : Prop :=
  ∀ userId u, db.users.get? userId = some u → ¬ Unnamed viewer db userId →
    (db'.users.get? userId).map User.displayName = some u.displayName

theorem keepsNames_same (h : db'.users = db.users) : KeepsNames viewer db db' := by
  intro userId u hu _
  rw [h, hu, Option.map_some]

theorem keepsNames_extended (h : Table.Extended db.users db'.users) : KeepsNames viewer db db' := by
  intro userId u hu _
  rw [h.get? hu, Option.map_some]

theorem keepsNames_update (p : Int → User → Bool) {f : User → User}
    (hf : ∀ userId u, db.users.get? userId = some u → p userId u = true → ¬ Unnamed viewer db userId →
      (f u).displayName = u.displayName) :
    KeepsNames viewer db { db with users := db.users.update p f } := by
  intro userId u hu hshows
  rw [Table.get?_update, hu, Option.map_some, Option.map_some]
  split
  · next hp => rw [hf userId u hu hp hshows]
  · rfl

theorem keepsNames_audited {fault : Option AppError} {row : AuditRow} {write : Tx Unit}
    (h : audited fault row write db = .ok (db', ()))
    (hwrite : ∀ changed, write db = .ok (changed, ()) → KeepsNames viewer db changed) :
    KeepsNames viewer db db' := by
  obtain ⟨-, changed, hchanged, rfl⟩ := audited_ok h
  exact hwrite changed hchanged

theorem keepsNames_account {env : Crates} {now : Int} {request : Settings.Request}
    (hforeign : Foreign viewer db (.request (.account request)))
    (h : Settings.exec env none now request db = .ok (db', ())) : KeepsNames viewer db db' := by
  cases request with
  | logout cookie =>
    cases h
    unfold Settings.destroySession
    split <;> exact keepsNames_same rfl
  | useApiToken bearer =>
    simp only [Settings.exec, Settings.apiTokenUser] at h
    split at h
    · cases h
    · split at h
      · cases h
      · cases h
        exact keepsNames_same rfl
  | createApiToken userId name token =>
    simp only [Settings.exec, Settings.createApiTokenTx] at h
    refine keepsNames_audited h fun changed hchanged => ?_
    split at hchanged
    · cases hchanged
    · cases hchanged
      exact keepsNames_same rfl
  | changePassword userId email newHash current =>
    simp only [Settings.exec, Settings.changePasswordTx] at h
    refine keepsNames_audited h fun changed hchanged => ?_
    cases hchanged
    exact keepsNames_update _ fun _ _ _ _ _ => rfl
  | updateProfile userId targetId displayName =>
    simp only [Settings.exec, Settings.updateProfileTx] at h
    refine keepsNames_audited h fun changed hchanged => ?_
    cases hchanged
    refine keepsNames_update _ fun id u _ hid hshows => ?_
    obtain rfl := of_decide_eq_true hid
    exact absurd hforeign hshows
  | revokeApiToken | uploadAvatar | deleteAvatar | revokeOtherSessions | revokeSession =>
    simp only [Settings.exec, Settings.revokeApiTokenTx, Settings.uploadAvatarTx,
      Settings.deleteAvatarTx, Settings.revokeOtherSessionsTx, Settings.revokeSessionTx] at h
    refine keepsNames_audited h fun changed hchanged => ?_
    cases hchanged
    exact keepsNames_same rfl

theorem Founded.names (h : Founded viewer db) (hnames : KeepsNames viewer db db') {id : Int} {c : Comment}
    (hc : db.comments.get? id = some c) (hsees : seesIssue db viewer c.issueId = true) :
    namedComment db' (id, c) = namedComment db (id, c) := by
  obtain ⟨hauthor, heditor⟩ := h.authors id c hc hsees
  have hname : ∀ userId, Has db.users userId → ¬ Unnamed viewer db userId →
      (db'.users.get? userId).map User.displayName = (db.users.get? userId).map User.displayName := by
    intro userId huser hshows
    obtain ⟨u, hu⟩ := Option.isSome_iff_exists.mp huser
    rw [hnames userId u hu hshows, hu, Option.map_some]
  simp only [namedComment, NamedComment.mk.injEq, true_and]
  constructor
  · exact hname c.userId hauthor fun hunnamed => (hunnamed id c hc hsees).1 rfl
  · cases heq : c.updatedBy with
    | none => rfl
    | some userId => exact hname userId (heditor userId heq) fun hunnamed => (hunnamed id c hc hsees).2 heq

/-- Only memberships of others, projects of others and names that no comment shows
differ. -/
theorem Founded.unread_of_rows (h : Founded viewer db) (hnames : KeepsNames viewer db db')
    (hrows : ∀ t ∈ [TableName.issues, .rawEvents, .events, .issueTags, .comments], SameTable db db' t)
    (hmemberships : (db'.memberships.filter fun m => m.userId = viewer) =
      db.memberships.filter fun m => m.userId = viewer)
    (hprojects : (db'.projects.select fun id _ => isMember db id viewer) =
      db.projects.select fun id _ => isMember db id viewer) : Unread viewer db db' := by
  have hissues : db'.issues = db.issues := hrows .issues (by simp)
  have hraw : db'.rawEvents = db.rawEvents := hrows .rawEvents (by simp)
  have hevents : db'.events = db.events := hrows .events (by simp)
  have htags : db'.issueTags = db.issueTags := hrows .issueTags (by simp)
  have hcomments : db'.comments = db.comments := hrows .comments (by simp)
  refine ⟨⟨fun id => ?_, by rw [hissues], by rw [htags], fun id _ => ?_, by rw [hcomments]⟩,
    hmemberships, hprojects, fun id c => h.names hnames⟩
  · simp only [seesIssue, hissues, isMember_own, hmemberships]
  · rw [issueEvents, issueEvents, hevents, hraw]

/-- Memberships and projects stay as well. -/
theorem Founded.unread_of_names (h : Founded viewer db) (hnames : KeepsNames viewer db db')
    (hrows : ∀ t ∈ [TableName.issues, .rawEvents, .events, .issueTags, .comments, .memberships, .projects],
      SameTable db db' t) : Unread viewer db db' := by
  have hmemberships : db'.memberships = db.memberships := hrows .memberships (by simp)
  have hprojects : db'.projects = db.projects := hrows .projects (by simp)
  refine h.unread_of_rows hnames (fun t ht => hrows t ?_) (by rw [hmemberships]) (by rw [hprojects])
  simp only [List.mem_cons, List.not_mem_nil, or_false] at ht ⊢
  tauto

/-- Nothing but the issues of others differs. -/
theorem unread_of_hidden (hhidden : Hidden viewer db db')
    (hrows : ∀ t ∈ [TableName.users, .memberships, .projects], SameTable db db' t) :
    Unread viewer db db' := by
  have husers : db'.users = db.users := hrows .users (by simp)
  have hmemberships : db'.memberships = db.memberships := hrows .memberships (by simp)
  have hprojects : db'.projects = db.projects := hrows .projects (by simp)
  refine ⟨hhidden, by rw [hmemberships], by rw [hprojects], fun id c _ _ => ?_⟩
  rw [namedComment, namedComment, husers]

theorem Founded.unread_createProject (h : Founded viewer db) {session : Auth.Session}
    (hother : session.userId ≠ viewer) {form : Projects.ProjectForm} {projectId : Int}
    (htx : Projects.createProject session form db = .ok (db', projectId)) : Unread viewer db db' := by
  obtain ⟨name, slug, description, -, -, rfl⟩ := Projects.createProject_ok htx
  have hnew : isMember db db.projects.nextId viewer = false := by
    rw [Bool.eq_false_iff]
    intro hmember
    simp only [isMember, List.any_eq_true, decide_eq_true_eq] at hmember
    obtain ⟨m, hm, hproject, hviewer⟩ := hmember
    have hhas := h.projects m hm hviewer
    rw [hproject, Has, db.projects.get?_nextId] at hhas
    cases hhas
  refine h.unread_of_rows (keepsNames_same rfl) (by simp [SameTable]) ?_ (db.projects.select_insert _ hnew)
  simp [List.filter_append, hother]

theorem filter_upsertMembership {memberships : List Membership} {projectId userId : Int}
    (hother : userId ≠ viewer) (role : ProjectRole) :
    ((Projects.upsertMembership memberships projectId userId role).filter fun m => m.userId = viewer) =
      memberships.filter fun m => m.userId = viewer := by
  refine Upsert.filter_upsert_other (fun m hm => ?_) (by exact decide_eq_false hother) memberships
  obtain ⟨-, rfl⟩ := of_decide_eq_true hm
  exact ⟨decide_eq_false hother, decide_eq_false hother⟩

theorem Founded.unread_writeMember (h : Founded viewer db) {request : Projects.CheckedMember}
    {argon2 : Except String String} (hother : Projects.targetUser db request.form ≠ viewer)
    (htx : Projects.writeMember request argon2 db = .ok (db', ())) : Unread viewer db db' := by
  obtain ⟨-, -, users, hkept, rfl⟩ := Projects.writeMember_ok htx
  exact h.unread_of_rows (keepsNames_extended hkept) (by simp [SameTable])
    (filter_upsertMembership hother request.role) rfl

theorem unread_commit {α : Type} {tx : Tx α} (h : ∀ db' a, tx db = .ok (db', a) → Unread viewer db db') :
    Unread viewer db (silent (commit tx db)).2 :=
  commit_snd (Unread viewer db) (.refl viewer db) h

end Writes

theorem exec_unread (cfg : Setup) (now : Int) {viewer : Int} {db : Db} {op : Op} (hfounded : Founded viewer db)
    (h : Foreign viewer db op) : Unread viewer db (exec cfg now db op).2 := by
  have hframe := exec_frame cfg now db op
  cases op with
  | worker w => exact hfounded.unread_of_names (keepsNames_same (hframe .users rfl)) (hframe.same rfl)
  | request r =>
    cases r with
    | ingest req body storageId =>
      exact unread_of_hidden (hidden_ingest cfg now h body storageId) (hframe.same rfl)
    | setIssueStatus | replaceIssueTags | insertComment | updateComment | deleteComment =>
      exact unread_of_hidden (Unseen.toHidden (exec_unseen cfg now (by exact h))) (hframe.same rfl)
    | bootstrap argon2 form =>
      refine unread_commit fun db' a htx => ?_
      obtain ⟨-, u, rfl⟩ := Projects.bootstrap_ok htx
      exact hfounded.unread_of_names (keepsNames_extended (.inr ⟨u, rfl⟩)) (by simp [SameTable])
    | createProject => exact unread_commit fun db' a htx => hfounded.unread_createProject h htx
    | writeMember => exact unread_commit fun db' a htx => hfounded.unread_writeMember h htx
    | account request =>
      have hnames : KeepsNames viewer db (exec cfg now db (.request (.account request))).2 :=
        commit_snd (KeepsNames viewer db) (keepsNames_same rfl) fun db' a htx => keepsNames_account h htx
      exact hfounded.unread_of_names hnames (hframe.same rfl)
    | _ => exact hfounded.unread_of_names (keepsNames_same (hframe .users rfl)) (hframe.same rfl)

theorem readable_after (cfg : Setup) {viewer : Int} {db : Db} {ops : List (Int × Op)}
    (hfounded : Founded viewer db)
    (h : Runs.Along (step cfg) (fun db op => Foreign viewer db op.2) ops db) :
    readable viewer (after cfg ops db) = readable viewer db := by
  have hinv := Runs.along_invariant
    (I := fun s => readable viewer s = readable viewer db ∧ Founded viewer s)
    (fun s op t hs hop hstep => by
      obtain rfl : (exec cfg op.1 s op.2).2 = t := by simpa [step] using hstep
      have hunread := exec_unread cfg op.1 hs.2 hop
      exact ⟨hunread.readable.trans hs.1, hs.2.unread hunread⟩)
    (run_eq_after cfg ops db) h ⟨rfl, hfounded⟩
  exact hinv.1

/-- Every key of the sample store refers to a row. -/
theorem Sample.intact_store (t : TableName) :
    References.Intact (Confidentiality.Sample.store "p" "q" "k" "s" "ours") t := by
  cases t <;>
    simp [References.Intact, Reference.Holds, Has, Confidentiality.Sample.store, Db.empty] <;> decide

/-- Whatever others do in any order of operations, the requests of a user who
takes no part are answered as before. -/
theorem bystander_answers (cfg : Setup) {viewer : Int} {db : Db} {ops : List (Int × Op)}
    (hintact : ∀ t, References.Intact db t)
    (h : Runs.Along (step cfg) (fun db op => Foreign viewer db op.2) ops db) (rd : Reading) (query : Query) :
    answer cfg.env rd (after cfg ops db) viewer query = answer cfg.env rd db viewer query :=
  answer_alike (readable_after cfg (founded_of_intact hintact) h) cfg.env rd query

/-- Ada, who comments on nothing that Bob can read, takes another name, and the worker
looks for work. -/
theorem bystander_answers_bob :
    let store := Confidentiality.Sample.store "p" "q" "k" "s" "ours"
    answer Sample.crates Confidentiality.Sample.reading
        (after ⟨Sample.crates, none⟩
          [(5, .request (.account (.updateProfile 1 1 "Countess"))), (6, .worker .claim)] store)
        2 (.comments "demo" 1) =
      answer Sample.crates Confidentiality.Sample.reading store 2 (.comments "demo" 1) := by
  have hunnamed : Unnamed 2 (Confidentiality.Sample.store "p" "q" "k" "s" "ours") 1 := by
    intro id c hc hsees
    have hissue : c.issueId = 1 := by
      simp only [Confidentiality.Sample.store, Table.get?_insert] at hc
      split at hc
      · cases hc
        rfl
      · cases hc
    rw [hissue] at hsees
    exact absurd hsees (by decide)
  exact @bystander_answers ⟨Sample.crates, none⟩ 2 (Confidentiality.Sample.store "p" "q" "k" "s" "ours")
    [(5, .request (.account (.updateProfile 1 1 "Countess"))), (6, .worker .claim)] Sample.intact_store
    ⟨hunnamed, fun _ _ => ⟨trivial, fun _ _ => trivial⟩⟩ Confidentiality.Sample.reading (.comments "demo" 1)

end Zbierak.ApiReads
