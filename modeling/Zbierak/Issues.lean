import Zbierak.Auth
import Zbierak.Tags
import Mathlib.Data.List.Sort
import Mathlib.Data.List.Dedup
import Mathlib.Data.String.Basic

/-!
# Issue transactions

Status, tags and comments of one issue. Each transaction looks its issue up by
id and project first, and a miss anywhere along the chain is `notFound`. The
lemmas at the end state once what a committed transaction did.
-/
namespace Zbierak.Issues

/-- The issue with this id, when it belongs to the project. -/
def issueIn (db : Db) (projectId issueId : Int) : Option Issue :=
  (db.issues.get? issueId).filter fun i => i.projectId = projectId

def addActivity (db : Db) (issueId userId : Int) (kind : ActivityKind)
    (details : List (String × Value)) (now : Int) : Db :=
  { db with activity := db.activity.insert ⟨issueId, some userId, kind, .object details, now⟩ }

/-- The transaction of `set_issue_status`. -/
def setIssueStatusTx (projectId issueId userId : Int) (status : IssueStatus) (now : Int) : Tx Unit :=
  fun db =>
    match issueIn db projectId issueId with
    | none => .error .notFound
    | some issue =>
      if issue.status ≠ status then
        let updated := { db with
          issues := db.issues.update (fun id i => id = issueId ∧ i.projectId = projectId) fun i =>
            { i with status } }
        .ok (addActivity updated issueId userId .status
          [("from", .string issue.status.asStr), ("to", .string status.asStr)] now, ())
      else .ok (db, ())

/-- Tags of one issue in text order. -/
def tagsForIssue (db : Db) (issueId : Int) : List String :=
  ((db.issueTags.filter fun t => t.issueId = issueId).map IssueTag.tag).insertionSort (· ≤ ·)

/-- Insert-or-ignore of each tag under the key of issue and tag. -/
def insertTags (issueId : Int) : List String → List IssueTag → List IssueTag
  | [], rows => rows
  | tag :: rest, rows =>
    insertTags issueId rest (if ⟨issueId, tag⟩ ∈ rows then rows else rows ++ [⟨issueId, tag⟩])

/-- Tags are compared as a set: the stored ones are read sorted. -/
def replaceIssueTags (projectId issueId userId : Int) (tags : List String) (now : Int) : Tx Unit :=
  fun db =>
    match issueIn db projectId issueId with
    | none => .error .notFound
    | some _ =>
      let previous := tagsForIssue db issueId
      let canonical := tags.insertionSort (· ≤ ·)
      if canonical = previous then .ok (db, ())
      else
        let replaced := { db with
          issueTags := insertTags issueId tags (db.issueTags.filter fun t => t.issueId ≠ issueId) }
        .ok (addActivity replaced issueId userId .tags
          [("from", .array (previous.map .string)), ("to", .array (canonical.map .string))] now, ())

def canModifyComment (role : ProjectRole) (actorId authorId : Int) : Bool :=
  actorId = authorId ∨ ProjectRole.admin ≤ role

/-- The comment with this id, when it belongs to the issue and the issue to
the project: its author and the time it was removed. -/
def loadCommentAccess (db : Db) (projectId issueId commentId : Int) :
    Except AppError (Int × Option Int) :=
  match (db.comments.get? commentId).filter fun c =>
      c.issueId = issueId ∧ (issueIn db projectId issueId).isSome with
  | some c => .ok (c.userId, c.deletedAt)
  | none => .error .notFound

def actorRoleInProject (db : Db) (projectId userId : Int) : Except AppError ProjectRole :=
  match Auth.membershipRole db projectId userId with
  | some role => .ok role
  | none => .error (.database .rowNotFound)

def insertCommentTx (projectId userId issueId : Int) (body : String) (now : Int) : Tx Int := fun db =>
  match issueIn db projectId issueId with
  | none => .error .notFound
  | some _ =>
    let commentId := db.comments.nextId
    let inserted := { db with
      comments := db.comments.insert ⟨issueId, userId, body, now, none, none, none⟩ }
    .ok (addActivity inserted issueId userId .comment
      [("body", .string body), ("comment_id", .number (.int commentId))] now, commentId)

/-- What edit and removal share: the author-or-admin policy, one write to the
comment that is not a tombstone, and the timeline entry. -/
def modifyCommentTx (projectId userId issueId commentId : Int) (change : Comment → Comment)
    (kind : ActivityKind) (now : Int) : Tx Unit := fun db => do
  let (authorId, deletedAt) ← loadCommentAccess db projectId issueId commentId
  if deletedAt.isSome then .error .notFound
  else
    let role ← actorRoleInProject db projectId userId
    let live := fun id (c : Comment) => decide (id = commentId ∧ c.deletedAt = none)
    if canModifyComment role userId authorId = false then .error .forbidden
    else if (db.comments.select live).isEmpty then .error .notFound
    else
      let modified := { db with comments := db.comments.update live change }
      .ok (addActivity modified issueId userId kind
        [("comment_id", .number (.int commentId))] now, ())

def updateCommentTx (projectId userId issueId commentId : Int) (body : String) (now : Int) : Tx Unit :=
  modifyCommentTx projectId userId issueId commentId
    (fun c => { c with body, updatedAt := some now, updatedBy := some userId }) .commentEdited now

def deleteCommentTx (projectId userId issueId commentId : Int) (now : Int) : Tx Unit :=
  modifyCommentTx projectId userId issueId commentId
    (fun c => { c with deletedAt := some now, updatedBy := some userId }) .commentDeleted now

theorem issueIn_some {db : Db} {projectId issueId : Int} {i : Issue} :
    issueIn db projectId issueId = some i ↔
      db.issues.get? issueId = some i ∧ i.projectId = projectId := by
  simp [issueIn, Option.filter_eq_some_iff]

theorem issue_of_issueIn {db : Db} {projectId issueId : Int}
    (h : (issueIn db projectId issueId).isSome = true) : (db.issues.get? issueId).isSome = true := by
  obtain ⟨i, hi⟩ := Option.isSome_iff_exists.mp h
  simp [(issueIn_some.mp hi).1]

theorem setIssueStatusTx_ok {db db' : Db} {projectId issueId userId now : Int} {status : IssueStatus}
    (h : setIssueStatusTx projectId issueId userId status now db = .ok (db', ())) :
    ∃ i, issueIn db projectId issueId = some i ∧
      (i.status = status ∧ db' = db ∨ i.status ≠ status ∧ db' = { db with
        issues := db.issues.update (fun id i => id = issueId ∧ i.projectId = projectId) fun i =>
          { i with status }
        activity := db.activity.insert ⟨issueId, some userId, .status,
          .object [("from", .string i.status.asStr), ("to", .string status.asStr)], now⟩ }) := by
  unfold setIssueStatusTx at h
  split at h
  · cases h
  · next i hi =>
    refine ⟨i, hi, ?_⟩
    split at h
    · next hne =>
      cases h
      exact .inr ⟨hne, rfl⟩
    · next heq =>
      cases h
      exact .inl ⟨not_not.mp heq, rfl⟩

/-- Tag replacement leaves the tags of other issues. -/
theorem filter_insertTags (issueId : Int) (tags : List String) (rows : List IssueTag)
    (p : IssueTag → Bool) (hp : ∀ tag, p ⟨issueId, tag⟩ = false) :
    (insertTags issueId tags rows).filter p = rows.filter p := by
  induction tags generalizing rows with
  | nil => rfl
  | cons tag rest ih =>
    rw [insertTags, ih]
    split
    · rfl
    · simp [List.filter_append, hp]

theorem replaceIssueTags_ok {db db' : Db} {projectId issueId userId now : Int} {tags : List String}
    (h : replaceIssueTags projectId issueId userId tags now db = .ok (db', ())) :
    (issueIn db projectId issueId).isSome ∧
      (db' = db ∨ ∃ details, db' = { db with
        issueTags := insertTags issueId tags (db.issueTags.filter fun t => t.issueId ≠ issueId)
        activity := db.activity.insert
          ⟨issueId, some userId, .tags, .object details, now⟩ }) := by
  unfold replaceIssueTags at h
  split at h
  · cases h
  · next i hi =>
    refine ⟨by simp [hi], ?_⟩
    dsimp only at h
    split at h
    · cases h
      exact .inl rfl
    · cases h
      exact .inr ⟨_, rfl⟩

theorem insertCommentTx_ok {db db' : Db} {projectId userId issueId now commentId : Int}
    {body : String} (h : insertCommentTx projectId userId issueId body now db = .ok (db', commentId)) :
    (issueIn db projectId issueId).isSome ∧ commentId = db.comments.nextId ∧ db' = { db with
      comments := db.comments.insert ⟨issueId, userId, body, now, none, none, none⟩
      activity := db.activity.insert ⟨issueId, some userId, .comment,
        .object [("body", .string body), ("comment_id", .number (.int commentId))], now⟩ } := by
  unfold insertCommentTx at h
  split at h
  · cases h
  · next i hi =>
    cases h
    exact ⟨by simp [hi], rfl, rfl⟩

/-- A comment that was modified was live, and its author or an admin did it. -/
theorem modifyCommentTx_ok {db db' : Db} {projectId userId issueId commentId now : Int}
    {change : Comment → Comment} {kind : ActivityKind}
    (h : modifyCommentTx projectId userId issueId commentId change kind now db = .ok (db', ())) :
    (issueIn db projectId issueId).isSome ∧
      (∃ c role, db.comments.get? commentId = some c ∧ c.issueId = issueId ∧ c.deletedAt = none ∧
        Auth.membershipRole db projectId userId = some role ∧
        canModifyComment role userId c.userId = true) ∧ db' = { db with
      comments := db.comments.update (fun id c => id = commentId ∧ c.deletedAt = none) change
      activity := db.activity.insert ⟨issueId, some userId, kind,
        .object [("comment_id", .number (.int commentId))], now⟩ } := by
  obtain ⟨⟨authorId, deletedAt⟩, haccess, h⟩ := Except.bind_ok h
  unfold loadCommentAccess at haccess
  split at haccess
  · next c hc =>
    cases haccess
    obtain ⟨hget, hp⟩ := Option.filter_eq_some_iff.mp hc
    simp only [decide_eq_true_eq] at hp
    dsimp only at h
    split at h
    · cases h
    · next hlive =>
      obtain ⟨role, hrole, h⟩ := Except.bind_ok h
      split at h
      · cases h
      · next hallowed =>
        split at h
        · cases h
        · cases h
          unfold actorRoleInProject at hrole
          split at hrole
          · next found hfound =>
            cases hrole
            exact ⟨hp.2, ⟨c, role, hget, hp.1, by simpa using hlive, hfound,
              by simpa using hallowed⟩, rfl⟩
          · cases hrole
  · cases haccess

/-- A tombstone is not modified. -/
theorem modifyCommentTx_tombstone {db : Db} {projectId userId issueId commentId now : Int}
    {change : Comment → Comment} {kind : ActivityKind} {c : Comment}
    (hget : db.comments.get? commentId = some c) (hdeleted : c.deletedAt.isSome = true) :
    modifyCommentTx projectId userId issueId commentId change kind now db = .error .notFound := by
  unfold modifyCommentTx loadCommentAccess
  rw [hget]
  by_cases hp : c.issueId = issueId ∧ (issueIn db projectId issueId).isSome = true
  · simp [Option.filter, hp, hdeleted, bind, Except.bind]
  · simp [Option.filter, hp, bind, Except.bind]

section Foreign

variable {db : Db} {projectId issueId : Int} (userId now : Int)

/-- No transaction touches an issue of another project. -/
theorem setIssueStatusTx_foreign (status : IssueStatus) (h : issueIn db projectId issueId = none) :
    setIssueStatusTx projectId issueId userId status now db = .error .notFound := by
  simp [setIssueStatusTx, h]

theorem replaceIssueTags_foreign (tags : List String) (h : issueIn db projectId issueId = none) :
    replaceIssueTags projectId issueId userId tags now db = .error .notFound := by
  simp [replaceIssueTags, h]

theorem insertCommentTx_foreign (body : String) (h : issueIn db projectId issueId = none) :
    insertCommentTx projectId userId issueId body now db = .error .notFound := by
  simp [insertCommentTx, h]

theorem loadCommentAccess_foreign {commentId : Int}
    (h : ¬ ((issueIn db projectId issueId).isSome = true ∧
      ∃ c, db.comments.get? commentId = some c ∧ c.issueId = issueId)) :
    loadCommentAccess db projectId issueId commentId = .error .notFound := by
  unfold loadCommentAccess
  split
  · next c hc =>
    obtain ⟨hget, hp⟩ := Option.filter_eq_some_iff.mp hc
    simp only [decide_eq_true_eq] at hp
    exact absurd ⟨hp.2, c, hget, hp.1⟩ h
  · rfl

theorem modifyCommentTx_foreign {commentId : Int} {change : Comment → Comment} {kind : ActivityKind}
    (h : ¬ ((issueIn db projectId issueId).isSome = true ∧
      ∃ c, db.comments.get? commentId = some c ∧ c.issueId = issueId)) :
    modifyCommentTx projectId userId issueId commentId change kind now db = .error .notFound := by
  simp only [modifyCommentTx, loadCommentAccess_foreign h, bind, Except.bind]

end Foreign

end Zbierak.Issues
