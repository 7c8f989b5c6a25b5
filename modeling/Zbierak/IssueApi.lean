import Zbierak.Forms
import Zbierak.Issues

/-!
# Issue requests

The handlers for the issues of one project, JSON and HTML. The JSON surface
knows the caller's user id; the HTML surface also checks the form token and
answers with a redirect to the issue page.
-/
namespace Zbierak.IssueApi

open Issues
open Forms (requiredText)

structure IssueListQuery where
  tag : Option String
  status : Option String
  limit : Option Nat
  offset : Option Nat

structure EventListQuery where
  limit : Option Nat
  offset : Option Nat

structure StatusForm where
  csrfToken : String
  status : String

structure CommentForm where
  csrfToken : String
  body : String

structure TagsForm where
  csrfToken : String
  tags : String

structure IssueJson where
  id : Int
  title : String
  status : IssueStatus
  eventCount : Int
  firstSeenAt : Int
  lastSeenAt : Int
  fingerprint : String
  tags : List String
  deriving DecidableEq, Repr

structure FrameView where
  number : Nat
  inApp : Option Bool
  function : Option String
  module : Option String
  filename : Option String
  line : Option Nat
  column : Option Nat
  deriving DecidableEq, Repr

structure ApiEventJson where
  id : String
  occurredAt : String
  environment : String
  release : Option String
  message : String
  severity : String
  errorType : Option String
  errorValue : Option String
  stackFrames : List FrameView
  deriving DecidableEq, Repr

structure CommentJson where
  id : Int
  author : String
  userId : Int
  body : Option String
  createdAt : Int
  updatedAt : Option Int
  updatedBy : Option String
  deletedAt : Option Int
  deriving DecidableEq, Repr

inductive Response where
  | issues (items : List IssueJson)
  | issue (item : IssueJson)
  | events (items : List ApiEventJson)
  | tags (items : List String)
  | comments (items : List CommentJson)
  | comment (status : Nat) (item : CommentJson)
  | noContent
  | redirect (location : String)
  deriving DecidableEq, Repr

def filterTags : Option String → Except AppError (List String)
  | none => .ok []
  | some raw => (Tags.normalizeCommaSeparated raw).mapError fun error =>
      .badRequest s!"tag filter {error}"

def issueJson (db : Db) (row : Int × Issue) : IssueJson :=
  let (id, i) := row
  ⟨id, i.title, i.status, i.eventCount, i.firstSeenAt, i.lastSeenAt, i.fingerprint,
    tagsForIssue db id⟩

/-- Whether the issue carries every one of the given tags. -/
def carriesTags (db : Db) (issueId : Int) (tags : List String) : Bool :=
  ((db.issueTags.filter fun t => t.issueId = issueId ∧ t.tag ∈ tags).map
    IssueTag.tag).dedup.length = tags.length

/-- `scan` is the order in which the store visits the issues; it decides
between issues of equal activity time. -/
def fetchIssues (scan : List (Int × Issue) → List (Int × Issue)) (db : Db) (projectId : Int)
    (tags : List String) (status : Option String) (limit offset : Nat) : List IssueJson :=
  let matching := (scan db.issues.rows).filter fun row =>
    row.2.projectId = projectId ∧ (∀ raw ∈ status, row.2.status.asStr = raw) ∧
      (tags = [] ∨ carriesTags db row.1 tags = true)
  (((matching.insertionSort fun a b => b.2.lastSeenAt ≤ a.2.lastSeenAt).drop offset).take limit).map
    (issueJson db)

def listIssues (scan : List (Int × Issue) → List (Int × Issue)) (db : Db) (userId : Int)
    (slug : String) (query : IssueListQuery) : Except AppError Response := do
  if query.status.any fun raw => (IssueStatus.parse raw).isNone then
    .error (.badRequest "status must be unresolved, resolved, or ignored")
  let limit := query.limit.getD 50
  if ¬ (1 ≤ limit ∧ limit ≤ 200) then .error (.badRequest "limit must be between 1 and 200")
  let tags ← filterTags query.tag
  let projectId ← Auth.requireProjectRole db userId slug .viewer
  .ok (.issues (fetchIssues scan db projectId tags query.status limit (query.offset.getD 0)))

def getIssue (db : Db) (userId : Int) (slug : String) (issueId : Int) : Except AppError Response := do
  let projectId ← Auth.requireProjectRole db userId slug .viewer
  match issueIn db projectId issueId with
  | none => .error .notFound
  | some i => .ok (.issue (issueJson db (issueId, i)))

def textMember (payload : Value) (key : String) : Option String := (payload.get key).bind Value.asStr

def errorTypeView (payload : Value) : String :=
  (((payload.get "error").bind fun error => error.get "type").bind Value.asStr).getD ""

def errorValueView (payload : Value) : String :=
  (((payload.get "error").bind fun error => error.get "value").bind Value.asStr).getD ""

/-- Frame of an entry with its position; an entry without function and file
name is dropped. -/
def frameView (index : Nat) (frame : Value) : Option FrameView :=
  let function := textMember frame "function"
  let filename := textMember frame "filename"
  if function = none ∧ filename = none then none
  else some {
    number := index + 1
    inApp := (frame.get "in_app").bind Value.asBool
    module := textMember frame "module"
    function
    filename
    line := (frame.get "line").bind Value.asU64
    column := (frame.get "column").bind Value.asU64 }

/-- The frames of the error when it has a member for them, else the event's. -/
def stackFramesView (payload : Value) : List FrameView :=
  let frames := (((payload.get "error").bind fun error => error.get "stack_frames").or
    (payload.get "stack_frames")).bind Value.asArray
  ((frames.getD []).zipIdx).filterMap fun entry => frameView entry.2 entry.1

def eventJson (env : Crates) (row : String × EventRow) : ApiEventJson :=
  let (id, e) := row
  let payload := match env.valueFromStr e.payloadJson with
    | .ok value => value
    | .error _ => .null
  let errorType := errorTypeView payload
  let errorValue := errorValueView payload
  { id
    occurredAt := (textMember payload "timestamp").getD (toString e.receivedAt)
    environment := (textMember payload "environment").getD "default"
    release := textMember payload "release"
    message := (textMember payload "message").getD ""
    severity := (textMember payload "severity").getD "error"
    errorType := if errorType = "" then none else some errorType
    errorValue := if errorValue = "" then none else some errorValue
    stackFrames := stackFramesView payload }

/-- Events of one issue with their producer ids, newest first. -/
def eventRows (db : Db) (issueId : Int) : List (String × EventRow) :=
  let joined := db.events.flatMap fun e =>
    if e.issueId = issueId then
      (db.rawEvents.filter fun r => r.id = e.id).map fun r => (r.producerEventId, e)
    else []
  joined.insertionSort fun a b =>
    b.2.receivedAt < a.2.receivedAt ∨ (a.2.receivedAt = b.2.receivedAt ∧ a.2.id ≤ b.2.id)

def listIssueEvents (env : Crates) (db : Db) (userId : Int) (slug : String) (issueId : Int)
    (query : EventListQuery) : Except AppError Response := do
  let limit := query.limit.getD 20
  if ¬ (1 ≤ limit ∧ limit ≤ 100) then .error (.badRequest "limit must be between 1 and 100")
  let projectId ← Auth.requireProjectRole db userId slug .viewer
  if (issueIn db projectId issueId).isNone then .error .notFound
  .ok (.events ((((eventRows db issueId).drop (query.offset.getD 0)).take limit).map
    (eventJson env)))

/-- Join of a comment with its author and its last editor; the body of a
tombstone is blanked. -/
def commentJson (db : Db) (row : Int × Comment) : Option CommentJson :=
  let (id, c) := row
  (db.users.get? c.userId).map fun author => {
    id
    author := author.displayName
    userId := c.userId
    body := if c.deletedAt.isSome then none else some c.body
    createdAt := c.createdAt
    updatedAt := c.updatedAt
    updatedBy := (c.updatedBy.bind db.users.get?).map User.displayName
    deletedAt := c.deletedAt }

def fetchCommentJson (db : Db) (commentId : Int) : Except AppError CommentJson :=
  match (db.comments.get? commentId).bind fun c => commentJson db (commentId, c) with
  | some comment => .ok comment
  | none => .error .notFound

def listComments (db : Db) (userId : Int) (slug : String) (issueId : Int) :
    Except AppError Response := do
  let projectId ← Auth.requireProjectRole db userId slug .viewer
  if (issueIn db projectId issueId).isNone then .error .notFound
  let rows := (db.comments.select fun _ c => c.issueId = issueId).insertionSort fun a b =>
    a.2.createdAt < b.2.createdAt ∨ (a.2.createdAt = b.2.createdAt ∧ a.1 ≤ b.1)
  .ok (.comments (rows.filterMap (commentJson db)))

def validateCommentBody (raw : String) : Except AppError String :=
  let trimmed := Text.trim raw
  if trimmed = "" ∨ Text.charCount trimmed > 10000 then
    .error (.unprocessable (some "body") "comment must contain 1 to 10,000 characters")
  else .ok trimmed

def issuePage (slug : String) (issueId : Int) : Response :=
  .redirect s!"/projects/{slug}/issues/{issueId}"

/-- Continue with the checked input, or refuse without a write. -/
def checked {α : Type} (db : Db) (input : Except AppError α)
    (next : α → Except AppError Response × Db) : Except AppError Response × Db :=
  match input with
  | .error e => (.error e, db)
  | .ok a => next a

/-- Run a transaction and answer from the store it leaves. -/
def transact {α : Type} (db : Db) (tx : Tx α) (answer : Db → α → Except AppError Response) :
    Except AppError Response × Db :=
  match commit tx db with
  | (.ok a, db') => (answer db' a, db')
  | (.error e, db') => (.error e, db')

section Writes

variable (now : Int) (db : Db) (userId : Int) (session : Auth.Session) (slug : String)
  (issueId commentId : Int)

def updateIssueTags (payload : List String) : Except AppError Response × Db :=
  checked db (Auth.requireProjectRole db userId slug .developer) fun projectId =>
    checked db ((Tags.normalizeTags payload).mapError fun error =>
        .unprocessable (some "tags") error) fun tags =>
      transact db (replaceIssueTags projectId issueId userId tags now)
        fun db' _ => .ok (.tags (tagsForIssue db' issueId))

def createComment (body : String) : Except AppError Response × Db :=
  checked db (validateCommentBody body) fun body =>
    checked db (Auth.requireProjectRole db userId slug .developer) fun projectId =>
      transact db (insertCommentTx projectId userId issueId body now)
        fun db' commentId => (fetchCommentJson db' commentId).map (.comment 201)

def updateComment (body : String) : Except AppError Response × Db :=
  checked db (validateCommentBody body) fun body =>
    checked db (Auth.requireProjectRole db userId slug .developer) fun projectId =>
      transact db (updateCommentTx projectId userId issueId commentId body now)
        fun db' _ => (fetchCommentJson db' commentId).map (.comment 200)

def deleteComment : Except AppError Response × Db :=
  checked db (Auth.requireProjectRole db userId slug .developer) fun projectId =>
    transact db (deleteCommentTx projectId userId issueId commentId now) fun _ _ => .ok .noContent

def setIssueStatus (csrfToken : String) (status : IssueStatus) : Except AppError Response × Db :=
  checked db (Auth.checkCsrf session csrfToken) fun _ =>
    checked db (Auth.requireProjectRole db session.userId slug .developer) fun projectId =>
      transact db (setIssueStatusTx projectId issueId session.userId status now)
        fun _ _ => .ok (issuePage slug issueId)

def changeIssueStatus (form : StatusForm) : Except AppError Response × Db :=
  match IssueStatus.parse form.status with
  | none => (.error (.badRequest "invalid issue status"), db)
  | some status => setIssueStatus now db session slug issueId form.csrfToken status

def resolveIssue (csrfToken : String) : Except AppError Response × Db :=
  setIssueStatus now db session slug issueId csrfToken .resolved

def reopenIssue (csrfToken : String) : Except AppError Response × Db :=
  setIssueStatus now db session slug issueId csrfToken .unresolved

def addComment (form : CommentForm) : Except AppError Response × Db :=
  checked db (Auth.checkCsrf session form.csrfToken) fun _ =>
    checked db (requiredText "comment" form.body 10000) fun body =>
      checked db (Auth.requireProjectRole db session.userId slug .developer) fun projectId =>
        transact db (insertCommentTx projectId session.userId issueId body now)
          fun _ _ => .ok (issuePage slug issueId)

def editCommentForm (form : CommentForm) : Except AppError Response × Db :=
  checked db (Auth.checkCsrf session form.csrfToken) fun _ =>
    checked db (requiredText "comment" form.body 10000) fun body =>
      checked db (Auth.requireProjectRole db session.userId slug .developer) fun projectId =>
        transact db (updateCommentTx projectId session.userId issueId commentId body now)
          fun _ _ => .ok (issuePage slug issueId)

def deleteCommentForm (csrfToken : String) : Except AppError Response × Db :=
  checked db (Auth.checkCsrf session csrfToken) fun _ =>
    checked db (Auth.requireProjectRole db session.userId slug .developer) fun projectId =>
      transact db (deleteCommentTx projectId session.userId issueId commentId now)
        fun _ _ => .ok (issuePage slug issueId)

def updateIssueTagsForm (form : TagsForm) : Except AppError Response × Db :=
  checked db (Auth.checkCsrf session form.csrfToken) fun _ =>
    checked db (Auth.requireProjectRole db session.userId slug .developer) fun projectId =>
      checked db ((Tags.normalizeCommaSeparated form.tags).mapError .badRequest) fun tags =>
        transact db (replaceIssueTags projectId issueId session.userId tags now)
          fun _ _ => .ok (issuePage slug issueId)

end Writes

end Zbierak.IssueApi
