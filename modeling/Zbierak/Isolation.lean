import Zbierak.IssueApi

/-!
# Tenant isolation

Issue and comment ids are global, so every request names rows of other
projects as easily as its own. The rows of a project are its `issueData`; a
transaction on an issue is confined to the rows of that issue, and the role
check decides which project the issue is looked up in.
-/
namespace Zbierak.Isolation

open Issues IssueApi
open Forms (requiredText)

/-- Requests that are scoped by a project slug and, most of them, an issue. -/
inductive IssueRequest where
  | listIssues (query : IssueListQuery)
  | getIssue (issueId : Int)
  | listIssueEvents (issueId : Int) (query : EventListQuery)
  | listComments (issueId : Int)
  | updateIssueTags (issueId : Int) (payload : List String)
  | createComment (issueId : Int) (body : String)
  | updateComment (issueId commentId : Int) (body : String)
  | deleteComment (issueId commentId : Int)
  | changeIssueStatus (issueId : Int) (form : StatusForm)
  | resolveIssue (issueId : Int) (csrfToken : String)
  | reopenIssue (issueId : Int) (csrfToken : String)
  | addComment (issueId : Int) (form : CommentForm)
  | editCommentForm (issueId commentId : Int) (form : CommentForm)
  | deleteCommentForm (issueId commentId : Int) (csrfToken : String)
  | updateIssueTagsForm (issueId : Int) (form : TagsForm)

/-- Answer a request of a signed-in user; the API handlers use the user alone. -/
def serve (env : Crates) (scan : List (Int × Issue) → List (Int × Issue)) (now : Int) (db : Db)
    (session : Auth.Session) (slug : String) :
    IssueRequest → Except AppError Response × Db
  | .listIssues query => (listIssues scan db session.userId slug query, db)
  | .getIssue issueId => (getIssue db session.userId slug issueId, db)
  | .listIssueEvents issueId query =>
    (listIssueEvents env db session.userId slug issueId query, db)
  | .listComments issueId => (listComments db session.userId slug issueId, db)
  | .updateIssueTags issueId payload => updateIssueTags now db session.userId slug issueId payload
  | .createComment issueId body => createComment now db session.userId slug issueId body
  | .updateComment issueId commentId body =>
    updateComment now db session.userId slug issueId commentId body
  | .deleteComment issueId commentId =>
    deleteComment now db session.userId slug issueId commentId
  | .changeIssueStatus issueId form => changeIssueStatus now db session slug issueId form
  | .resolveIssue issueId csrfToken => resolveIssue now db session slug issueId csrfToken
  | .reopenIssue issueId csrfToken => reopenIssue now db session slug issueId csrfToken
  | .addComment issueId form => addComment now db session slug issueId form
  | .editCommentForm issueId commentId form =>
    editCommentForm now db session slug issueId commentId form
  | .deleteCommentForm issueId commentId csrfToken =>
    deleteCommentForm now db session slug issueId commentId csrfToken
  | .updateIssueTagsForm issueId form => updateIssueTagsForm now db session slug issueId form

/-- Issue, event, tag, comment and activity rows of one project. -/
structure IssueData where
  issues : List (Int × Issue)
  rawEvents : List RawEvent
  events : List EventRow
  tags : List IssueTag
  comments : List (Int × Comment)
  activity : List (Int × Activity)

def inProject (db : Db) (projectId issueId : Int) : Bool := (issueIn db projectId issueId).isSome

def issueData (db : Db) (projectId : Int) : IssueData where
  issues := db.issues.select fun _ i => i.projectId = projectId
  rawEvents := db.rawEvents.filter fun r => r.projectId = projectId
  events := db.events.filter fun e => e.projectId = projectId
  tags := db.issueTags.filter fun t => inProject db projectId t.issueId
  comments := db.comments.select fun _ c => inProject db projectId c.issueId
  activity := db.activity.select fun _ a => inProject db projectId a.issueId

/-- Between the two stores only rows of the issue changed. -/
structure Confined (projectId issueId : Int) (db db' : Db) : Prop where
  inProject : ∀ p id, inProject db' p id = inProject db p id
  issues : ∀ p, p ≠ projectId →
    (db'.issues.select fun _ i => i.projectId = p) = db.issues.select fun _ i => i.projectId = p
  rawEvents : db'.rawEvents = db.rawEvents
  events : db'.events = db.events
  tags : ∀ p : IssueTag → Bool, (∀ tag, p ⟨issueId, tag⟩ = false) →
    db'.issueTags.filter p = db.issueTags.filter p
  comments : ∀ p : Int → Comment → Bool, (∀ id c, c.issueId = issueId → p id c = false) →
    db'.comments.select p = db.comments.select p
  activity : ∀ p : Int → Activity → Bool, (∀ id a, a.issueId = issueId → p id a = false) →
    db'.activity.select p = db.activity.select p

theorem Confined.refl (projectId issueId : Int) (db : Db) : Confined projectId issueId db db :=
  ⟨fun _ _ => rfl, fun _ _ => rfl, rfl, rfl, fun _ _ => rfl, fun _ _ => rfl, fun _ _ => rfl⟩

/-- An issue belongs to one project. -/
theorem inProject_other {db : Db} {projectId issueId p : Int}
    (h : inProject db projectId issueId = true) (hp : p ≠ projectId) :
    inProject db p issueId = false := by
  obtain ⟨i, hi⟩ := Option.isSome_iff_exists.mp h
  obtain ⟨hget, hproject⟩ := issueIn_some.mp hi
  simp [inProject, issueIn, hget, hproject, Option.filter, hp.symm]

/-- A confined change leaves the rows of every other project. -/
theorem Confined.issueData {projectId issueId p : Int} {db db' : Db}
    (h : Confined projectId issueId db db') (hi : Isolation.inProject db projectId issueId = true)
    (hp : p ≠ projectId) : issueData db' p = issueData db p := by
  have hother := inProject_other hi hp
  simp only [Isolation.issueData, h.inProject, h.issues p hp, h.rawEvents, h.events]
  rw [h.tags _ fun tag => hother, h.comments _ fun id c hc => by rw [hc, hother],
    h.activity _ fun id a ha => by rw [ha, hother]]

theorem select_activity {t : Table Activity} {issueId : Int} {a : Activity}
    (ha : a.issueId = issueId) (p : Int → Activity → Bool)
    (h : ∀ id a, a.issueId = issueId → p id a = false) : (t.insert a).select p = t.select p :=
  t.select_insert a (h _ _ ha)

theorem setIssueStatusTx_confined {db db' : Db} {projectId issueId userId now : Int}
    {status : IssueStatus}
    (h : setIssueStatusTx projectId issueId userId status now db = .ok (db', ())) :
    Isolation.inProject db projectId issueId = true ∧ Confined projectId issueId db db' := by
  obtain ⟨i, hi, ⟨-, rfl⟩ | ⟨-, rfl⟩⟩ := setIssueStatusTx_ok h
  · exact ⟨by simp [inProject, hi], .refl _ _ _⟩
  · refine ⟨by simp [inProject, hi], ?_, ?_, rfl, rfl, fun _ _ => rfl, fun _ _ => rfl, ?_⟩
    · intro p id
      simp only [inProject, issueIn, Table.get?_update]
      cases db.issues.get? id with
      | none => rfl
      | some j =>
        by_cases hj : id = issueId ∧ j.projectId = projectId
        · by_cases hp : projectId = p <;> simp [hj, hp, Option.filter]
        · simp [hj]
    · intro p hp
      dsimp only
      apply Table.select_update
      intro id j _ hj
      simp only [decide_eq_true_eq] at hj
      simp [hj.2, hp.symm]
    · exact fun p hp => select_activity rfl p hp

theorem replaceIssueTags_confined {db db' : Db} {projectId issueId userId now : Int}
    {tags : List String}
    (h : replaceIssueTags projectId issueId userId tags now db = .ok (db', ())) :
    Isolation.inProject db projectId issueId = true ∧ Confined projectId issueId db db' := by
  obtain ⟨hi, rfl | ⟨details, rfl⟩⟩ := replaceIssueTags_ok h
  · exact ⟨hi, .refl _ _ _⟩
  · refine ⟨hi, fun _ _ => rfl, fun _ _ => rfl, rfl, rfl, ?_, fun _ _ => rfl,
      fun p hp => select_activity rfl p hp⟩
    intro p hp
    rw [filter_insertTags _ _ _ _ hp, List.filter_filter]
    refine List.filter_congr fun t _ => ?_
    by_cases ht : t.issueId = issueId
    · cases t
      subst ht
      simp [hp]
    · simp [ht]

theorem insertCommentTx_confined {db db' : Db} {projectId userId issueId now commentId : Int}
    {body : String} (h : insertCommentTx projectId userId issueId body now db = .ok (db', commentId)) :
    Isolation.inProject db projectId issueId = true ∧ Confined projectId issueId db db' := by
  obtain ⟨hi, -, rfl⟩ := insertCommentTx_ok h
  exact ⟨hi, fun _ _ => rfl, fun _ _ => rfl, rfl, rfl, fun _ _ => rfl,
    fun p hp => Table.select_insert _ _ (hp _ _ rfl), fun p hp => select_activity rfl p hp⟩

theorem modifyCommentTx_confined {db db' : Db} {projectId userId issueId commentId now : Int}
    {change : Comment → Comment} {kind : ActivityKind}
    (hchange : ∀ c, (change c).issueId = c.issueId)
    (h : modifyCommentTx projectId userId issueId commentId change kind now db = .ok (db', ())) :
    Isolation.inProject db projectId issueId = true ∧ Confined projectId issueId db db' := by
  obtain ⟨hi, ⟨c, role, hc, hissue, -⟩, rfl⟩ := modifyCommentTx_ok h
  refine ⟨hi, fun _ _ => rfl, fun _ _ => rfl, rfl, rfl, fun _ _ => rfl, ?_,
    fun p hp => select_activity rfl p hp⟩
  intro p hp
  dsimp only
  apply Table.select_update
  intro id d hd hlive
  simp only [decide_eq_true_eq] at hlive
  obtain rfl : c = d := by simpa [hlive.1, hc] using hd
  exact ⟨hp _ _ hissue, hp _ _ ((hchange c).trans hissue)⟩

theorem updateCommentTx_confined {db db' : Db} {projectId userId issueId commentId now : Int}
    {body : String}
    (h : updateCommentTx projectId userId issueId commentId body now db = .ok (db', ())) :
    Isolation.inProject db projectId issueId = true ∧ Confined projectId issueId db db' :=
  modifyCommentTx_confined (by intro c; rfl) h

theorem deleteCommentTx_confined {db db' : Db} {projectId userId issueId commentId now : Int}
    (h : deleteCommentTx projectId userId issueId commentId now db = .ok (db', ())) :
    Isolation.inProject db projectId issueId = true ∧ Confined projectId issueId db db' :=
  modifyCommentTx_confined (by intro c; rfl) h

/-- Least role that the handler asks for. -/
def IssueRequest.minimum : IssueRequest → ProjectRole
  | .listIssues _ | .getIssue _ | .listIssueEvents _ _ | .listComments _ => .viewer
  | _ => .developer

/-- Whether the issue, and the comment with it, belongs to the project. -/
def Belongs (db : Db) (projectId : Int) : IssueRequest → Prop
  | .listIssues _ => True
  | .getIssue issueId | .listIssueEvents issueId _ | .listComments issueId
  | .updateIssueTags issueId _ | .createComment issueId _ | .changeIssueStatus issueId _
  | .resolveIssue issueId _ | .reopenIssue issueId _ | .addComment issueId _
  | .updateIssueTagsForm issueId _ => inProject db projectId issueId = true
  | .updateComment issueId commentId _ | .deleteComment issueId commentId
  | .editCommentForm issueId commentId _ | .deleteCommentForm issueId commentId _ =>
    inProject db projectId issueId = true ∧
      ∃ c, db.comments.get? commentId = some c ∧ c.issueId = issueId

/-- Requests that no check of the input itself refuses. -/
def Valid (session : Auth.Session) : IssueRequest → Prop
  | .listIssues query =>
    (query.status.any fun raw => (IssueStatus.parse raw).isNone) = false ∧
      (1 ≤ query.limit.getD 50 ∧ query.limit.getD 50 ≤ 200) ∧ ∃ tags, filterTags query.tag = .ok tags
  | .listIssueEvents _ query => 1 ≤ query.limit.getD 20 ∧ query.limit.getD 20 ≤ 100
  | .getIssue _ | .listComments _ | .deleteComment _ _ => True
  | .updateIssueTags _ payload => ∃ tags, Tags.normalizeTags payload = .ok tags
  | .createComment _ body | .updateComment _ _ body => ∃ text, validateCommentBody body = .ok text
  | .changeIssueStatus _ form =>
    session.csrfToken = form.csrfToken ∧ ∃ status, IssueStatus.parse form.status = some status
  | .resolveIssue _ csrfToken | .reopenIssue _ csrfToken | .deleteCommentForm _ _ csrfToken =>
    session.csrfToken = csrfToken
  | .addComment _ form | .editCommentForm _ _ form =>
    session.csrfToken = form.csrfToken ∧ ∃ text, requiredText "comment" form.body 10000 = .ok text
  | .updateIssueTagsForm _ form =>
    session.csrfToken = form.csrfToken ∧ ∃ tags, Tags.normalizeCommaSeparated form.tags = .ok tags

theorem checked_snd {α : Type} {db : Db} {input : Except AppError α}
    {next : α → Except AppError Response × Db} (q : Db → Prop) (hdb : q db)
    (h : ∀ a, input = .ok a → q (next a).2) : q (checked db input next).2 := by
  cases input with
  | error e => exact hdb
  | ok a => exact h a rfl

theorem transact_snd {α : Type} {db : Db} {tx : Tx α}
    {answer : Db → α → Except AppError Response} (q : Db → Prop) (hdb : q db)
    (h : ∀ db' a, tx db = .ok (db', a) → q db') : q (transact db tx answer).2 := by
  unfold transact
  rcases commit_cases tx db with ⟨db', a, htx, hc⟩ | ⟨e, -, hc⟩
  · rw [hc]
    exact h db' a htx
  · rw [hc]
    exact hdb

theorem transact_error {α : Type} {db : Db} {tx : Tx α} {e : AppError}
    {answer : Db → α → Except AppError Response} (h : tx db = .error e) :
    transact db tx answer = (.error e, db) := by
  simp [transact, commit_error h]

/-- A request leaves the store, or passes the role check and changes one issue
of the project it was granted. -/
def Granted (db : Db) (userId : Int) (slug : String) (db' : Db) : Prop :=
  db' = db ∨ ∃ projectId issueId, Auth.requireProjectRole db userId slug .developer = .ok projectId ∧
    inProject db projectId issueId = true ∧ Confined projectId issueId db db'

/-- The common tail of every writing handler. -/
theorem granted_transact {α : Type} {db : Db} {userId issueId : Int} {slug : String}
    {tx : Int → Tx α} {answer : Db → α → Except AppError Response}
    (h : ∀ projectId db' a, tx projectId db = .ok (db', a) →
      inProject db projectId issueId = true ∧ Confined projectId issueId db db') :
    Granted db userId slug (checked db (Auth.requireProjectRole db userId slug .developer)
      fun projectId => transact db (tx projectId) answer).2 :=
  checked_snd _ (.inl rfl) fun projectId hrole =>
    transact_snd _ (.inl rfl) fun db' a htx => .inr ⟨projectId, issueId, hrole, h projectId db' a htx⟩

theorem granted_setIssueStatus (now : Int) (db : Db) (session : Auth.Session) (slug : String)
    (issueId : Int) (csrfToken : String) (status : IssueStatus) :
    Granted db session.userId slug
      (setIssueStatus now db session slug issueId csrfToken status).2 :=
  checked_snd _ (.inl rfl) fun _ _ =>
    granted_transact fun _ _ _ htx => setIssueStatusTx_confined htx

theorem serve_granted (env : Crates) (scan : List (Int × Issue) → List (Int × Issue)) (now : Int)
    (db : Db) (session : Auth.Session) (slug : String) (request : IssueRequest) :
    Granted db session.userId slug (serve env scan now db session slug request).2 := by
  cases request with
  | listIssues | getIssue | listIssueEvents | listComments => exact .inl rfl
  | updateIssueTags =>
    refine checked_snd _ (.inl rfl) fun projectId hrole => ?_
    refine checked_snd _ (.inl rfl) fun tags _ => ?_
    exact transact_snd _ (.inl rfl) fun db' _ htx =>
      .inr ⟨projectId, _, hrole, replaceIssueTags_confined htx⟩
  | createComment =>
    refine checked_snd _ (.inl rfl) fun body _ => ?_
    exact granted_transact fun _ _ _ htx => insertCommentTx_confined htx
  | updateComment =>
    refine checked_snd _ (.inl rfl) fun body _ => ?_
    exact granted_transact fun _ _ _ htx => updateCommentTx_confined htx
  | deleteComment => exact granted_transact fun _ _ _ htx => deleteCommentTx_confined htx
  | changeIssueStatus issueId form =>
    simp only [serve, changeIssueStatus]
    cases IssueStatus.parse form.status with
    | none => exact .inl rfl
    | some status => exact granted_setIssueStatus _ _ _ _ _ _ _
  | resolveIssue | reopenIssue => exact granted_setIssueStatus _ _ _ _ _ _ _
  | addComment =>
    refine checked_snd _ (.inl rfl) fun _ _ => checked_snd _ (.inl rfl) fun body _ => ?_
    exact granted_transact fun _ _ _ htx => insertCommentTx_confined htx
  | editCommentForm =>
    refine checked_snd _ (.inl rfl) fun _ _ => checked_snd _ (.inl rfl) fun body _ => ?_
    exact granted_transact fun _ _ _ htx => updateCommentTx_confined htx
  | deleteCommentForm =>
    refine checked_snd _ (.inl rfl) fun _ _ => ?_
    exact granted_transact fun _ _ _ htx => deleteCommentTx_confined htx
  | updateIssueTagsForm =>
    refine checked_snd _ (.inl rfl) fun _ _ => ?_
    refine checked_snd _ (.inl rfl) fun projectId hrole => ?_
    refine checked_snd _ (.inl rfl) fun tags _ => ?_
    exact transact_snd _ (.inl rfl) fun db' _ htx =>
      .inr ⟨projectId, _, hrole, replaceIssueTags_confined htx⟩

theorem not_inProject {db : Db} {projectId issueId : Int} :
    ¬ inProject db projectId issueId = true ↔ issueIn db projectId issueId = none := by
  simp [inProject]

section Outcome

variable (env : Crates) (scan : List (Int × Issue) → List (Int × Issue)) (now : Int) {db : Db}
  {session : Auth.Session} {slug : String} {request : IssueRequest}

@[simp] theorem checked_ok {α : Type} (db : Db) (a : α) (next : α → Except AppError Response × Db) :
    checked db (.ok a) next = next a := rfl

@[simp] theorem checked_error {α : Type} (db : Db) (e : AppError)
    (next : α → Except AppError Response × Db) : checked db (.error e) next = (.error e, db) := rfl

/-- A valid request of a user who fails the role check has that answer. -/
theorem serve_refused {e : AppError} (hvalid : Valid session request)
    (hrole : Auth.requireProjectRole db session.userId slug request.minimum = .error e) :
    serve env scan now db session slug request = (.error e, db) := by
  cases request with
  | listIssues query =>
    obtain ⟨hstatus, hlimit, tags, htags⟩ := hvalid
    simp only [IssueRequest.minimum] at hrole
    simp [serve, listIssues, hstatus, hlimit, htags, hrole, bind, Except.bind]
  | listIssueEvents issueId query =>
    simp only [IssueRequest.minimum] at hrole
    simp only [Valid] at hvalid
    simp [serve, listIssueEvents, hvalid, hrole, bind, Except.bind]
  | getIssue | listComments =>
    simp only [IssueRequest.minimum] at hrole
    simp [serve, getIssue, listComments, hrole, bind, Except.bind]
  | updateIssueTags | deleteComment =>
    simp only [IssueRequest.minimum] at hrole
    simp [serve, updateIssueTags, deleteComment, hrole]
  | createComment | updateComment =>
    obtain ⟨text, htext⟩ := hvalid
    simp only [IssueRequest.minimum] at hrole
    simp [serve, createComment, updateComment, htext, hrole]
  | changeIssueStatus issueId form =>
    obtain ⟨hcsrf, status, hstatus⟩ := hvalid
    simp only [IssueRequest.minimum] at hrole
    simp [serve, changeIssueStatus, setIssueStatus, Auth.checkCsrf, hcsrf, hstatus, hrole]
  | resolveIssue | reopenIssue | deleteCommentForm =>
    simp only [Valid] at hvalid
    simp only [IssueRequest.minimum] at hrole
    simp [serve, resolveIssue, reopenIssue, setIssueStatus, deleteCommentForm, Auth.checkCsrf,
      hvalid, hrole]
  | addComment | editCommentForm =>
    obtain ⟨hcsrf, text, htext⟩ := hvalid
    simp only [IssueRequest.minimum] at hrole
    simp [serve, addComment, editCommentForm, Auth.checkCsrf, hcsrf, htext, hrole]
  | updateIssueTagsForm =>
    simp only [IssueRequest.minimum] at hrole
    simp [serve, updateIssueTagsForm, Auth.checkCsrf, hvalid.1, hrole]

/-- A valid request that passes the role check but names an issue or comment
from elsewhere finds nothing. -/
theorem serve_foreign {projectId : Int} (hvalid : Valid session request)
    (hrole : Auth.requireProjectRole db session.userId slug request.minimum = .ok projectId)
    (hforeign : ¬ Belongs db projectId request) :
    serve env scan now db session slug request = (.error .notFound, db) := by
  cases request with
  | listIssues => exact absurd trivial hforeign
  | getIssue | listComments =>
    simp only [IssueRequest.minimum] at hrole
    simp only [Belongs, inProject, Bool.not_eq_true, Option.isSome_eq_false_iff,
      Option.isNone_iff_eq_none] at hforeign
    simp [serve, getIssue, listComments, hrole, hforeign, bind, Except.bind]
  | listIssueEvents issueId query =>
    simp only [IssueRequest.minimum] at hrole
    simp only [Valid] at hvalid
    simp only [Belongs, inProject, Bool.not_eq_true, Option.isSome_eq_false_iff,
      Option.isNone_iff_eq_none] at hforeign
    simp [serve, listIssueEvents, hvalid, hrole, hforeign, bind, Except.bind]
  | updateIssueTags =>
    obtain ⟨tags, htags⟩ := hvalid
    simp only [IssueRequest.minimum] at hrole
    simp [serve, updateIssueTags, htags, hrole, Except.mapError,
      transact_error (replaceIssueTags_foreign _ _ _ (not_inProject.mp hforeign))]
  | createComment =>
    obtain ⟨text, htext⟩ := hvalid
    simp only [IssueRequest.minimum] at hrole
    simp [serve, createComment, htext, hrole,
      transact_error (insertCommentTx_foreign _ _ _ (not_inProject.mp hforeign))]
  | updateComment =>
    obtain ⟨text, htext⟩ := hvalid
    simp only [IssueRequest.minimum] at hrole
    simp [serve, updateComment, htext, hrole, updateCommentTx,
      transact_error (modifyCommentTx_foreign _ _ hforeign)]
  | deleteComment =>
    simp only [IssueRequest.minimum] at hrole
    simp [serve, deleteComment, hrole, deleteCommentTx,
      transact_error (modifyCommentTx_foreign _ _ hforeign)]
  | changeIssueStatus issueId form =>
    obtain ⟨hcsrf, status, hstatus⟩ := hvalid
    simp only [IssueRequest.minimum] at hrole
    simp [serve, changeIssueStatus, setIssueStatus, Auth.checkCsrf, hcsrf, hstatus, hrole,
      transact_error (setIssueStatusTx_foreign _ _ _ (not_inProject.mp hforeign))]
  | resolveIssue | reopenIssue =>
    simp only [Valid] at hvalid
    simp only [IssueRequest.minimum] at hrole
    simp [serve, resolveIssue, reopenIssue, setIssueStatus, Auth.checkCsrf, hvalid, hrole,
      transact_error (setIssueStatusTx_foreign _ _ _ (not_inProject.mp hforeign))]
  | addComment =>
    obtain ⟨hcsrf, text, htext⟩ := hvalid
    simp only [IssueRequest.minimum] at hrole
    simp [serve, addComment, Auth.checkCsrf, hcsrf, htext, hrole,
      transact_error (insertCommentTx_foreign _ _ _ (not_inProject.mp hforeign))]
  | editCommentForm =>
    obtain ⟨hcsrf, text, htext⟩ := hvalid
    simp only [IssueRequest.minimum] at hrole
    simp [serve, editCommentForm, Auth.checkCsrf, hcsrf, htext, hrole, updateCommentTx,
      transact_error (modifyCommentTx_foreign _ _ hforeign)]
  | deleteCommentForm =>
    simp only [Valid] at hvalid
    simp only [IssueRequest.minimum] at hrole
    simp [serve, deleteCommentForm, Auth.checkCsrf, hvalid, hrole, deleteCommentTx,
      transact_error (modifyCommentTx_foreign _ _ hforeign)]
  | updateIssueTagsForm =>
    obtain ⟨hcsrf, tags, htags⟩ := hvalid
    simp only [IssueRequest.minimum] at hrole
    simp [serve, updateIssueTagsForm, Auth.checkCsrf, hcsrf, htags, hrole, Except.mapError,
      transact_error (replaceIssueTags_foreign _ _ _ (not_inProject.mp hforeign))]

end Outcome

/-- Issue-scoped requests are isolated between projects: rows change only in a
project the caller may write, outsiders learn nothing, and ids of other
projects are not found. -/
theorem tenant_isolation (env : Crates) (scan : List (Int × Issue) → List (Int × Issue))
    (now : Int) (db : Db) (session : Auth.Session) (slug : String) (request : IssueRequest) :
    (∀ projectId,
      issueData (serve env scan now db session slug request).2 projectId ≠ issueData db projectId →
        Auth.Names db slug projectId ∧
          ∃ role, .developer ≤ role ∧ Auth.Member db projectId session.userId role) ∧
    (Valid session request →
      (∀ projectId role, Auth.Names db slug projectId →
        ¬ Auth.Member db projectId session.userId role) →
      serve env scan now db session slug request = (.error .notFound, db) ∧
        ∀ unknown, (∀ projectId, ¬ Auth.Names db unknown projectId) →
          serve env scan now db session unknown request =
            serve env scan now db session slug request) ∧
    (db.UniqueKeys → Valid session request →
      ∀ projectId role, Auth.Names db slug projectId →
      Auth.Member db projectId session.userId role → request.minimum ≤ role →
      ¬ Belongs db projectId request →
        serve env scan now db session slug request = (.error .notFound, db)) := by
  have outsider : Valid session request → ∀ name, (∀ projectId role, Auth.Names db name projectId →
      ¬ Auth.Member db projectId session.userId role) →
      serve env scan now db session name request = (.error .notFound, db) := fun hvalid name h =>
    serve_refused env scan now hvalid (Auth.requireProjectRole_notFound h _)
  refine ⟨fun projectId hne => ?_,
    fun hvalid h => ⟨outsider hvalid slug h, fun unknown hu => ?_⟩, ?_⟩
  · rcases serve_granted env scan now db session slug request with hsame | ⟨p, i, hrole, hi, hc⟩
    · exact absurd (by rw [hsame]) hne
    · have hp : projectId = p := by
        by_contra hne'
        exact hne (hc.issueData hi hne')
      subst hp
      exact Auth.requireProjectRole_ok hrole
  · rw [outsider hvalid slug h, outsider hvalid unknown fun p _ hp => absurd hp (hu p)]
  · intro hkeys hvalid projectId role hp hm hrole hforeign
    exact serve_foreign env scan now hvalid
      (Auth.requireProjectRole_of_member hkeys hp hm hrole) hforeign

/-- Projects "demo" and "other", a developer of the first, and an issue of the second. -/
def Sample.twoProjects : Db :=
  { Db.empty with
    projects := (Table.empty.insert ⟨"demo", "Demo", "", 1⟩).insert ⟨"other", "Other", "", 2⟩
    memberships := [⟨1, 7, .developer⟩, ⟨2, 8, .owner⟩]
    issues := Table.empty.insert ⟨2, "f", "m", .unresolved, 1, 0, 0⟩ }

theorem Sample.twoProjects_uniqueKeys : Sample.twoProjects.UniqueKeys where
  slugs a b p q hp hq hpq := by
    have hrows : ∀ x ∈ Sample.twoProjects.projects.rows, ∀ y ∈ Sample.twoProjects.projects.rows,
        nocaseEq x.2.slug y.2.slug = true → x.1 = y.1 := by decide
    exact hrows (a, p) ((Table.get?_eq_some _).mp hp) (b, q) ((Table.get?_eq_some _).mp hq) hpq
  memberships := by decide

theorem Sample.twoProjects_outsider (projectId : Int) (role : ProjectRole)
    (hnames : Auth.Names Sample.twoProjects "other" projectId) :
    ¬ Auth.Member Sample.twoProjects projectId 7 role := by
  intro hmember
  obtain ⟨p, hp, hslug⟩ := hnames
  obtain ⟨rfl, rfl⟩ : projectId = 1 ∧ role = .developer := by
    simpa [Auth.Member, Sample.twoProjects] using hmember
  cases hp
  exact absurd hslug (by decide)

/-- Resolving the issue through the developer's own project, and asking about
the other one, both find nothing. -/
theorem tenant_isolation_twoProjects :
    serve Sample.crates id 10 Sample.twoProjects ⟨7, "csrf"⟩ "demo" (.resolveIssue 1 "csrf") =
      (.error .notFound, Sample.twoProjects) ∧
    serve Sample.crates id 10 Sample.twoProjects ⟨7, "csrf"⟩ "other" (.resolveIssue 1 "csrf") =
      (.error .notFound, Sample.twoProjects) := by
  obtain ⟨-, -, hforeign⟩ := tenant_isolation Sample.crates id 10 Sample.twoProjects ⟨7, "csrf"⟩
    "demo" (.resolveIssue 1 "csrf")
  obtain ⟨-, houtside, -⟩ := tenant_isolation Sample.crates id 10 Sample.twoProjects ⟨7, "csrf"⟩
    "other" (.resolveIssue 1 "csrf")
  have hissue : ¬ inProject Sample.twoProjects 1 1 = true := by decide
  exact ⟨hforeign Sample.twoProjects_uniqueKeys rfl 1 .developer ⟨_, rfl, rfl⟩ List.mem_cons_self
    (by decide) hissue, (houtside rfl Sample.twoProjects_outsider).1⟩

end Zbierak.Isolation
