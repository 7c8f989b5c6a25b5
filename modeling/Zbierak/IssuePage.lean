import Zbierak.IssueApi

/-!
# The issue page and its Markdown export

Both are made from the same details of an issue. A page is given by the values
its template inserts and the branches it takes, an export by its sections.
-/
namespace Zbierak.IssuePage

open IssueApi (FrameView textMember stackFramesView errorTypeView errorValueView)

/-- What the template engine takes for true, and the libraries that render
Markdown and times. -/
structure Rendering where
  truthy : Option Int → Bool
  renderMarkdown : String → String
  formatUnix : Int → String

structure ProjectRow where
  slug : String
  name : String
  description : String
  role : ProjectRole
  ingestUrl : String
  deriving DecidableEq, Repr

structure EventView where
  id : String
  payloadJson : String
  occurredAt : String
  environment : String
  release : Option String
  stacktrace : String
  stackFrames : List FrameView
  deriving DecidableEq, Repr

structure CommentRow where
  id : Int
  body : String
  displayName : String
  createdAt : Int
  userId : Int
  deletedAt : Option Int
  updatedAt : Option Int
  updatedByName : Option String
  avatarUrl : Option String
  bodyHtml : String
  deriving DecidableEq, Repr

structure ActivityRow where
  id : Int
  kind : String
  detailsJson : String
  displayName : Option String
  createdAt : Int
  deriving DecidableEq, Repr

structure IssueDetails where
  project : ProjectRow
  issue : Value
  events : List EventView
  comments : List CommentRow
  activity : List ActivityRow

def kindText : ActivityKind → String
  | .status => "status"
  | .comment => "comment"
  | .regression => "regression"
  | .tags => "tags"
  | .commentEdited => "comment_edited"
  | .commentDeleted => "comment_deleted"

def avatarUrl (userId : Int) (sha256 : Option String) : Option String :=
  sha256.map fun sha256 =>
    let version := Text.takeChars 16 sha256
    s!"/users/{userId}/avatar?v={version}"

def avatarOf (db : Db) (userId : Int) : Option String :=
  avatarUrl userId ((db.userAvatars.find? fun a => a.userId = userId).map UserAvatar.sha256)

/-- The frames of the error when it has a member for them, else the event's. -/
def frames (payload : Value) : Option (List Value) :=
  (((payload.get "error").bind fun error => error.get "stack_frames").or
    (payload.get "stack_frames")).bind Value.asArray

def frameLine (frame : Value) : String :=
  let function := (textMember frame "function").getD "<unknown>"
  let file := (textMember frame "filename").getD "<unknown>"
  match (frame.get "line").bind Value.asU64 with
  | some line => s!"{function} at {file}:{line}"
  | none => s!"{function} at {file}"

def formatStacktrace (payload : Value) : String :=
  "\n".intercalate (((frames payload).getD []).map frameLine)

def eventView (row : String × EventRow) (payload : Value) : EventView where
  id := row.1
  payloadJson := row.2.payloadJson
  occurredAt := (textMember payload "timestamp").getD (toString row.2.receivedAt)
  environment := (textMember payload "environment").getD "default"
  release := textMember payload "release"
  stacktrace := formatStacktrace payload
  stackFrames := stackFramesView payload

/-- A frame as JSON; what it lacks is left out. -/
def frameValue (f : FrameView) : Value :=
  let text := fun (key : String) (value : Option String) => (value.map fun t => (key, Value.string t)).toList
  let number := fun (key : String) (value : Option Nat) =>
    (value.map fun (n : Nat) => (key, Value.number (.int n))).toList
  .object <|
    number "column" f.column ++ text "filename" f.filename ++ text "function" f.function ++
    (f.inApp.map fun b => ("in_app", Value.bool b)).toList ++ number "line" f.line ++
    text "module" f.module ++ number "number" (some f.number)

/-- What the latest event adds to the issue. -/
def payloadFields (payload : Value) : List (String × Value) := [
  ("message", (payload.get "message").getD .null),
  ("severity", (payload.get "severity").getD (.string "error")),
  ("environment", (payload.get "environment").getD .null),
  ("release", (payload.get "release").getD .null),
  ("stacktrace", .string (formatStacktrace payload)),
  ("stack_frames", .array ((stackFramesView payload).map frameValue)),
  ("error_type", .string (errorTypeView payload)),
  ("error_value", .string (errorValueView payload))]

/-- The issue with its tags and its latest event; members are looked up by key
alone. -/
def issueValue (db : Db) (issueId : Int) (i : Issue) (latest : Option Value) : Value :=
  .object <| [
    ("id", .number (.int issueId)),
    ("title", .string i.title),
    ("status", .string i.status.asStr),
    ("event_count", .number (.int i.eventCount)),
    ("first_seen_at", .number (.int i.firstSeenAt)),
    ("last_seen_at", .number (.int i.lastSeenAt)),
    ("fingerprint", .string i.fingerprint),
    ("tags", .array ((Issues.tagsForIssue db issueId).map .string))] ++
  (latest.map payloadFields).getD []

/-- The order in which the store visits joined events; it decides between events
received at the same time. -/
abbrev Scan := List (String × EventRow) → List (String × EventRow)

def recentEvents (scan : Scan) (db : Db) (issueId : Int) : List (String × EventRow) :=
  let joined := db.events.flatMap fun e =>
    if e.issueId = issueId then
      (db.rawEvents.filter fun r => r.id = e.id).map fun r => (r.producerEventId, e)
    else []
  ((scan joined).insertionSort fun a b => b.2.receivedAt ≤ a.2.receivedAt).take 20

/-- Comments of one issue, oldest first. -/
def commentsOf (db : Db) (issueId : Int) : List (Int × Comment) :=
  (db.comments.select fun _ c => c.issueId = issueId).insertionSort fun a b =>
    a.2.createdAt < b.2.createdAt ∨ (a.2.createdAt = b.2.createdAt ∧ a.1 ≤ b.1)

/-- Join of a comment with its author, editor and avatar. Tombstones stay
unrendered. -/
def commentRow (r : Rendering) (db : Db) (row : Int × Comment) : Option CommentRow :=
  let (id, c) := row
  (db.users.get? c.userId).map fun author => {
    id
    body := c.body
    displayName := author.displayName
    createdAt := c.createdAt
    userId := c.userId
    deletedAt := c.deletedAt
    updatedAt := c.updatedAt
    updatedByName := (c.updatedBy.bind db.users.get?).map User.displayName
    avatarUrl := avatarOf db c.userId
    bodyHtml := if c.deletedAt.isSome then "" else r.renderMarkdown c.body }

def activityRows (env : Crates) (db : Db) (issueId : Int) : List ActivityRow :=
  let rows := (db.activity.select fun _ a => a.issueId = issueId).insertionSort fun a b =>
    b.2.createdAt < a.2.createdAt ∨ (a.2.createdAt = b.2.createdAt ∧ b.1 ≤ a.1)
  rows.map fun (id, a) => {
    id
    kind := kindText a.kind
    detailsJson := env.valueToString a.details
    displayName := (a.userId.bind db.users.get?).map User.displayName
    createdAt := a.createdAt }

section Page

variable (env : Crates) (r : Rendering) (scan : Scan) (db : Db)

def loadIssueDetails (userId : Int) (slug : String) (issueId : Int) : Except AppError IssueDetails := do
  let projectId ← Auth.requireProjectRole db userId slug .viewer
  let some p := db.projects.get? projectId | .error (.database .rowNotFound)
  let some role := Auth.membershipRole db projectId userId | .error (.database .rowNotFound)
  let some i := Issues.issueIn db projectId issueId | .error .notFound
  let rows := recentEvents scan db issueId
  let payloads := rows.map fun row =>
    match env.valueFromStr row.2.payloadJson with
    | .ok value => value
    | .error _ => Value.null
  .ok {
    project := ⟨p.slug, p.name, p.description, role, "/api/v1/projects/" ++ p.slug ++ "/events"⟩
    issue := issueValue db issueId i payloads.head?
    events := rows.zipWith eventView payloads
    comments := (commentsOf db issueId).filterMap (commentRow r db)
    activity := activityRows env db issueId }

/-- What a comment card shows under its heading. The text of the edit form goes
with the id that its addresses carry. -/
inductive CardContent where
  | removed
  | body (html : String) (edit : Option (Int × String))
  deriving DecidableEq, Repr

structure CommentCard where
  isRemoved : Bool
  displayName : String
  userId : Int
  avatarUrl : Option String
  createdAt : Int
  edited : Option (Option String)
  content : CardContent
  deriving DecidableEq, Repr

def mayEdit (role : ProjectRole) (userId authorId : Int) : Bool :=
  role ≠ .viewer ∧ (authorId = userId ∨ role = .admin ∨ role = .owner)

def commentCard (role : ProjectRole) (userId : Int) (c : CommentRow) : CommentCard where
  isRemoved := r.truthy c.deletedAt
  displayName := c.displayName
  userId := c.userId
  avatarUrl := c.avatarUrl
  createdAt := c.createdAt
  edited := if r.truthy c.updatedAt then some (c.updatedByName.filter fun name => name ≠ "") else none
  content :=
    if r.truthy c.deletedAt then .removed
    else .body c.bodyHtml (if mayEdit role userId c.userId then some (c.id, c.body) else none)

/-- The values on the page; its sidebar does not show the details of activity. -/
structure Page where
  slug : String
  session : Auth.Session
  user : Option User
  userAvatar : Option String
  project : ProjectRow
  issue : Value
  events : List EventView
  comments : List CommentCard
  activity : List (Option String × String × Int)

def issue (session : Auth.Session) (slug : String) (issueId : Int) : Except AppError Page := do
  let details ← loadIssueDetails env r scan db session.userId slug issueId
  .ok {
    slug
    session
    user := db.users.get? session.userId
    userAvatar := avatarOf db session.userId
    project := details.project
    issue := details.issue
    events := details.events
    comments := details.comments.map (commentCard r details.project.role session.userId)
    activity := details.activity.map fun a => (a.displayName, a.kind, a.createdAt) }

end Page

section Markdown

variable (env : Crates) (r : Rendering)

def jsonText : Value → String
  | .null => ""
  | .string text => text
  | .bool b => env.valueToString (.bool b)
  | .number n => env.valueToString (.number n)
  | .array items => env.valueToString (.array items)
  | .object fields => env.valueToString (.object fields)

def issueField (issue : Value) (key : String) : String := ((issue.get key).map (jsonText env)).getD ""

/-- The longest run of backquotes, which is `Char.ofNat 96`. -/
def longestRun : List Char → Nat → Nat → Nat
  | [], _, longest => longest
  | c :: cs, current, longest =>
    if c = Char.ofNat 96 then longestRun cs (current + 1) (max longest (current + 1))
    else longestRun cs 0 longest

def fenceFor (content : String) : String :=
  String.ofList (List.replicate (max (longestRun content.toList 0 0) 2 + 1) (Char.ofNat 96))

/-- A line of the head of the document, left out when there is nothing to say. -/
def headLine (label value : String) : String := if value = "" then "" else s!"- **{label}:** {value}\n"

def timeLine (issue : Value) (label key : String) : String :=
  match issue.get key with
  | some (.number (.int timestamp)) =>
    let time := r.formatUnix timestamp
    s!"- **{label}:** {time}\n"
  | _ => ""

def headSection (details : IssueDetails) : String :=
  let issue := details.issue
  let title := issueField env issue "title"
  let shown := if title = "" then "Untitled issue" else title
  let tags := (((issue.get "tags").bind Value.asArray).getD []).filterMap Value.asStr
  let fingerprint := issueField env issue "fingerprint"
  let tagList := ", ".intercalate tags
  let project := details.project
  let projectId := issueField env issue "id"
  let eventCount := issueField env issue "event_count"
  s!"# {shown}\n\n" ++ s!"- **Project:** {project.name} ({project.slug})\n" ++
    s!"- **Issue ID:** {projectId}\n" ++ headLine "Status" (issueField env issue "status") ++
    (if tags = [] then "" else s!"- **Tags:** {tagList}\n") ++
    headLine "Severity" (issueField env issue "severity") ++
    (if fingerprint = "" then "" else s!"- **Fingerprint:** `{fingerprint}`\n") ++
    s!"- **Events:** {eventCount}\n" ++ timeLine r issue "First seen" "first_seen_at" ++
    timeLine r issue "Last seen" "last_seen_at" ++
    headLine "Environment" (issueField env issue "environment") ++
    headLine "Release" (issueField env issue "release") ++ "\n"

def messageSection (details : IssueDetails) : String :=
  let message := issueField env details.issue "message"
  if message = "" then "" else s!"## Message\n\n{message}\n\n"

def fenced (content info : String) : String :=
  let fence := fenceFor content
  s!"{fence}{info}\n{content}\n{fence}\n\n"

def errorSection (details : IssueDetails) : String :=
  let errorType := issueField env details.issue "error_type"
  let errorValue := issueField env details.issue "error_value"
  if errorType = "" then ""
  else "## Error\n\n" ++
    if errorValue = "" then s!"`{errorType}`\n\n" else fenced s!"{errorType}: {errorValue}" ""

def stackSection (details : IssueDetails) : String :=
  let stacktrace := issueField env details.issue "stacktrace"
  if stacktrace = "" then "" else "## Stack trace\n\n" ++ fenced stacktrace ""

def eventEntry (event : EventView) : String :=
  let environment := if event.environment = "" then "" else " · " ++ event.environment
  let release := ((event.release.filter fun value => value ≠ "").map fun value => " · " ++ value).getD ""
  let occurred := event.occurredAt ++ environment ++ release
  s!"### `{event.id}` — {occurred}\n" ++ fenced event.payloadJson "json"

def eventsSection (details : IssueDetails) : String :=
  if details.events = [] then ""
  else "## Recent events\n\n" ++ String.join (details.events.map eventEntry)

def commentEntry (c : CommentRow) : String :=
  let time := r.formatUnix c.createdAt
  s!"### {c.displayName} — {time}\n" ++
    if c.deletedAt.isSome then "_Comment removed._\n\n"
    else
      (if c.updatedAt.isSome then
        match c.updatedByName with
        | some editor => s!"_edited by {editor}_\n"
        | none => "_edited_\n"
      else "") ++ s!"{c.body}\n\n"

def commentsSection (details : IssueDetails) : String :=
  if details.comments = [] then ""
  else "## Comments\n\n" ++ String.join (details.comments.map (commentEntry r))

def activityEntry (a : ActivityRow) : String :=
  let actor := a.displayName.getD "System"
  let time := r.formatUnix a.createdAt
  let text := Text.trim a.detailsJson
  s!"- **{actor}** {a.kind} — {time}" ++
    (if text = "" ∨ text = "\x7b\x7d" ∨ text = "null" then "" else s!" — details: `{text}`") ++ "\n"

def activitySection (details : IssueDetails) : String :=
  if details.activity = [] then ""
  else "## Activity\n\n" ++ String.join (details.activity.map (activityEntry r)) ++ "\n"

/-- The sections of the document in their order. -/
def sections (details : IssueDetails) : List String := [
  headSection env r details, messageSection env details, errorSection env details,
  stackSection env details, eventsSection details, commentsSection r details,
  activitySection r details]

def issueMarkdown (details : IssueDetails) : String := String.join (sections env r details)

def exportIssueMarkdown (scan : Scan) (db : Db) (session : Auth.Session) (slug : String)
    (issueId : Int) : Except AppError String :=
  (loadIssueDetails env r scan db session.userId slug issueId).map (issueMarkdown env r)

end Markdown

end Zbierak.IssuePage
