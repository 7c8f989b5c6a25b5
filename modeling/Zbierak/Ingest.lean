import Zbierak.Auth
import Zbierak.Fingerprint
import Zbierak.Tags

/-!
# Ingestion

One request inserts the raw event, finds or creates the issue, extends its
labels, stores the event and queues the notifications, all in one transaction.
The unique index on project and producer event id decides whether the event is
new. `accept` is the whole first-acceptance path as a function; `ingest_cases`
says that a request is refused, repeats an accepted event, or accepts a new one.
-/
namespace Zbierak.Ingest

/-- Project and key an ingestion credential resolved to. -/
structure IngestProject where
  keyId : Int
  projectId : Int
  slug : String
  deriving DecidableEq, Repr

/-- What is computed from the body before the transaction starts. -/
structure Prepared where
  eventId : String
  fingerprint : String
  title : String
  labels : List String
  payload : String
  bodyHash : String
  deriving DecidableEq, Repr

def prepare (env : Crates) (body : Bytes) : Except AppError Prepared :=
  match env.valueFromSlice body with
  | .error error => .error (.badRequest s!"invalid JSON: {error}")
  | .ok value =>
    match env.eventDeserialize value with
    | .error error => .error (.badRequest s!"invalid event: {error}")
    | .ok event =>
      match event.validate env.parseRfc3339 with
      | .error error => .error (.unprocessable (some error.field) error.message)
      | .ok () =>
        match Text.fromUtf8 body with
        | none => .error (.badRequest "event body must be UTF-8 JSON")
        | some payload => .ok {
            eventId := event.eventId
            fingerprint := Fingerprint.eventFingerprint env value
            title := Text.takeChars 200 event.message
            labels := Tags.labelsFromEventTags event.tags
            payload
            bodyHash := env.sha256Hex body }

/-- The row the unique index on project and producer event id holds. -/
def findRaw (db : Db) (projectId : Int) (producerEventId : String) : Option RawEvent :=
  db.rawEvents.find? fun r => r.projectId = projectId ∧ r.producerEventId = producerEventId

/-- Insert or ignore: `none` when the producer event id is taken. -/
def insertRawEvent (db : Db) (row : RawEvent) : Except AppError (Option Db) :=
  if (findRaw db row.projectId row.producerEventId).isSome then .ok none
  else if db.rawEvents.any fun r => r.id = row.id then .error (.database (.unique "raw_events.id"))
  else if (db.projects.get? row.projectId).isNone then .error (.database (.foreignKey "projects"))
  else if (db.ingestKeys.get? row.ingestKeyId).isNone then
    .error (.database (.foreignKey "ingest_keys"))
  else .ok (some { db with rawEvents := db.rawEvents ++ [row] })

/-- Join of the events with their raw events for one producer event id: the
stored body hash, the issue and the fingerprint. -/
def acceptedResult (db : Db) (projectId : Int) (producerEventId : String) :
    Except AppError (Option String × Int × String) :=
  let rows := db.events.flatMap fun e =>
    (db.rawEvents.filter fun r =>
      r.id = e.id ∧ r.projectId = projectId ∧ r.producerEventId = producerEventId).map fun r =>
        (r.bodyHash, e.issueId, e.fingerprint)
  match rows with
  | row :: _ => .ok row
  | [] => .error (.database .rowNotFound)

def touchKey (db : Db) (keyId now : Int) : Db :=
  { db with
    ingestKeys := db.ingestKeys.update (fun id _ => id = keyId) fun k =>
      { k with lastUsedAt := some now } }

inductive NotificationKind where
  | created | regressed
  deriving DecidableEq, Repr

def NotificationKind.asStr : NotificationKind → String
  | created => "issue.created"
  | regressed => "issue.regressed"

def existingIssue (issues : Table Issue) (projectId : Int) (fingerprint : String) :
    Option (Int × Issue) :=
  issues.find? fun _ i => i.projectId = projectId ∧ i.fingerprint = fingerprint

/-- One more occurrence: a resolved issue is opened again. -/
def recur (now : Int) (i : Issue) : Issue :=
  { i with
    eventCount := i.eventCount + 1
    lastSeenAt := now
    status := if i.status = .resolved then .unresolved else i.status }

/-- The issue an event belongs to, with the notification its arrival causes. -/
def upsertIssue (db : Db) (projectId : Int) (p : Prepared) (now : Int) :
    Db × Int × Option NotificationKind :=
  match existingIssue db.issues projectId p.fingerprint with
  | some (issueId, issue) =>
    let counted := { db with issues := db.issues.update (fun id _ => id = issueId) (recur now) }
    if issue.status = .resolved then
      ({ counted with
          activity := db.activity.insert
            ⟨issueId, none, .regression, .object [("event_id", .string p.eventId)], now⟩ },
        issueId, some .regressed)
    else (counted, issueId, none)
  | none =>
    ({ db with
        issues := db.issues.insert ⟨projectId, p.fingerprint, p.title, .unresolved, 1, now, now⟩ },
      db.issues.nextId, some .created)

/-- Insert-or-ignore of the labels while there is room. -/
def mergeLabels (issueId : Int) : List String → Int → List IssueTag → List IssueTag
  | [], _, tags => tags
  | label :: rest, room, tags =>
    if room ≤ 0 then tags
    else if ⟨issueId, label⟩ ∈ tags then mergeLabels issueId rest room tags
    else mergeLabels issueId rest (room - 1) (tags ++ [⟨issueId, label⟩])

def addLabels (db : Db) (issueId : Int) (labels : List String) : Db :=
  if labels = [] then db
  else
    let stored := (db.issueTags.filter fun t => t.issueId = issueId).length
    { db with issueTags := mergeLabels issueId labels (Tags.maxTags - stored) db.issueTags }

def insertEvent (db : Db) (row : EventRow) : Except AppError Db :=
  if db.events.any fun e => e.id = row.id then .error (.database (.unique "events.id"))
  else .ok { db with events := db.events ++ [row] }

def issueUrl (publicUrl : Option String) (slug : String) (issueId : Int) : Option String :=
  publicUrl.map fun url =>
    let base := Text.trimEndChar '/' url
    s!"{base}/projects/{slug}/issues/{issueId}"

/-- Text members of a notification come in key order, as the map keeps them. -/
def notification (publicUrl : Option String) (slug : String) (issueId : Int) (p : Prepared)
    (kind : NotificationKind) : Value :=
  let link := issueUrl publicUrl slug issueId
  let headline := match kind with
    | .created => "New issue"
    | .regressed => "Issue regressed"
  let content := s!"{headline} in {slug}: {p.title}" ++ match link with
    | some url => "\n" ++ url
    | none => ""
  .object <|
    [("content", .string content), ("event", .string kind.asStr), ("event_id", .string p.eventId),
      ("fingerprint", .string p.fingerprint), ("issue_id", .number (.int issueId))] ++
    (link.map fun url => ("issue_url", .string url)).toList ++
    [("project", .string slug), ("title", .string p.title)]

/-- Endpoints of a project that receive notifications, in key order. -/
def enabledEndpoints (endpoints : Table Endpoint) (projectId : Int) : List Int :=
  (endpoints.select fun _ e => e.projectId = projectId ∧ e.enabled = true).map Prod.fst

def batch (env : Crates) (publicUrl : Option String) (endpoints : Table Endpoint)
    (req : IngestProject) (issueId : Int) (p : Prepared) (now : Int) (kind : NotificationKind) :
    List OutboxRow :=
  let payload := env.valueToString (notification publicUrl req.slug issueId p kind)
  (enabledEndpoints endpoints req.projectId).map fun endpointId =>
    ⟨endpointId, kind.asStr, payload, 0, now, none, none, none⟩

/-- Queue one row for each endpoint of the project that is enabled. -/
def notify (env : Crates) (publicUrl : Option String) (db : Db) (req : IngestProject)
    (issueId : Int) (p : Prepared) (now : Int) (kind : Option NotificationKind) : Db :=
  match kind with
  | some kind =>
    { db with
      outbox := db.outbox.insertAll (batch env publicUrl db.endpoints req issueId p now kind) }
  | none => db

/-- The first-acceptance path after the raw event is stored. -/
def acceptNew (env : Crates) (publicUrl : Option String) (req : IngestProject) (p : Prepared)
    (storageId : String) (now : Int) : Tx IngestResponse := fun db => do
  let (db, issueId, kind) := upsertIssue db req.projectId p now
  let db := addLabels db issueId p.labels
  let db ← insertEvent db ⟨storageId, req.projectId, issueId, p.fingerprint, p.payload, now⟩
  let db := touchKey db req.keyId now
  .ok (notify env publicUrl db req issueId p now kind, ⟨p.eventId, issueId, p.fingerprint, false⟩)

/-- The path of a producer event id that is taken. -/
def repeatAccepted (req : IngestProject) (p : Prepared) (now : Int) : Tx IngestResponse :=
  fun db => do
    let (existingHash, issueId, fingerprint) ← acceptedResult db req.projectId p.eventId
    if existingHash.any fun stored => stored ≠ p.bodyHash then
      .error (.eventConflict p.eventId)
    else .ok (touchKey db req.keyId now, ⟨p.eventId, issueId, fingerprint, true⟩)

def ingestTx (env : Crates) (publicUrl : Option String) (req : IngestProject) (body : Bytes)
    (p : Prepared) (storageId : String) (now : Int) : Tx IngestResponse := fun db => do
  let raw : RawEvent := ⟨storageId, req.projectId, req.keyId, body, p.eventId, some p.bodyHash, now⟩
  match ← insertRawEvent db raw with
  | none => repeatAccepted req p now db
  | some db => acceptNew env publicUrl req p storageId now db

/-- The request handler: `storageId` is the random id drawn for the event. -/
def ingest (env : Crates) (publicUrl : Option String) (req : IngestProject) (body : Bytes)
    (storageId : String) (now : Int) (db : Db) : Except AppError IngestResponse × Db :=
  match prepare env body with
  | .error e => (.error e, db)
  | .ok p => commit (ingestTx env publicUrl req body p storageId now) db

section Accepted

variable (env : Crates) (publicUrl : Option String) (req : IngestProject) (body : Bytes)
  (p : Prepared) (storageId : String) (now : Int) (db : Db)

/-- Issue the event goes to. -/
def issueOf (issues : Table Issue) : Int :=
  match existingIssue issues req.projectId p.fingerprint with
  | some (issueId, _) => issueId
  | none => issues.nextId

/-- Notification the event causes. -/
def kindOf (issues : Table Issue) : Option NotificationKind :=
  match existingIssue issues req.projectId p.fingerprint with
  | some (_, issue) => if issue.status = .resolved then some .regressed else none
  | none => some .created

def issuesAfter (issues : Table Issue) : Table Issue :=
  match existingIssue issues req.projectId p.fingerprint with
  | some (issueId, _) => issues.update (fun id _ => id = issueId) (recur now)
  | none => issues.insert ⟨req.projectId, p.fingerprint, p.title, .unresolved, 1, now, now⟩

def rawRow : RawEvent :=
  ⟨storageId, req.projectId, req.keyId, body, p.eventId, some p.bodyHash, now⟩

/-- The store after the event was accepted, table by table. -/
def accepted : Db :=
  let issueId := issueOf req p db.issues
  { db with
    rawEvents := db.rawEvents ++ [rawRow req body p storageId now]
    issues := issuesAfter req p now db.issues
    activity :=
      if kindOf req p db.issues = some .regressed then
        db.activity.insert
          ⟨issueId, none, .regression, .object [("event_id", .string p.eventId)], now⟩
      else db.activity
    issueTags := mergeLabels issueId p.labels
      (Tags.maxTags - (db.issueTags.filter fun t => t.issueId = issueId).length) db.issueTags
    events := db.events ++ [⟨storageId, req.projectId, issueId, p.fingerprint, p.payload, now⟩]
    ingestKeys := db.ingestKeys.update (fun id _ => id = req.keyId) fun k =>
      { k with lastUsedAt := some now }
    outbox :=
      match kindOf req p db.issues with
      | some kind => db.outbox.insertAll (batch env publicUrl db.endpoints req issueId p now kind)
      | none => db.outbox }

/-- What a request can do. -/
inductive Outcome : Except AppError IngestResponse × Db → Prop where
  | refused (e : AppError) : Outcome (.error e, db)
  | repeated (p : Prepared) (hash : Option String) (issueId : Int) (fingerprint : String)
      (hp : prepare env body = .ok p)
      (hraw : (findRaw db req.projectId p.eventId).isSome)
      (hrow : acceptedResult db req.projectId p.eventId = .ok (hash, issueId, fingerprint))
      (hhash : ∀ stored, hash = some stored → stored = p.bodyHash) :
      Outcome (.ok ⟨p.eventId, issueId, fingerprint, true⟩, touchKey db req.keyId now)
  | accepted (p : Prepared)
      (hp : prepare env body = .ok p)
      (hraw : findRaw db req.projectId p.eventId = none)
      (hid : ∀ r ∈ db.rawEvents, r.id ≠ storageId)
      (hproject : (db.projects.get? req.projectId).isSome)
      (hkey : (db.ingestKeys.get? req.keyId).isSome)
      (hevent : ∀ e ∈ db.events, e.id ≠ storageId) :
      Outcome (.ok ⟨p.eventId, issueOf req p db.issues, p.fingerprint, false⟩,
        accepted env publicUrl req body p storageId now db)

end Accepted

@[simp] theorem addLabels_eq (db : Db) (issueId : Int) (labels : List String) :
    addLabels db issueId labels = { db with
      issueTags := mergeLabels issueId labels
        (Tags.maxTags - (db.issueTags.filter fun t => t.issueId = issueId).length) db.issueTags } := by
  by_cases h : labels = []
  · subst h
    simp [addLabels, mergeLabels]
  · simp [addLabels, h]

/-- The upsert of the issue in the words of the specification. -/
theorem upsertIssue_eq (db : Db) (req : IngestProject) (p : Prepared) (now : Int) :
    upsertIssue db req.projectId p now =
      ({ db with
          issues := issuesAfter req p now db.issues
          activity :=
            if kindOf req p db.issues = some .regressed then
              db.activity.insert ⟨issueOf req p db.issues, none, .regression,
                .object [("event_id", .string p.eventId)], now⟩
            else db.activity },
        issueOf req p db.issues, kindOf req p db.issues) := by
  unfold upsertIssue issuesAfter kindOf issueOf
  cases existingIssue db.issues req.projectId p.fingerprint with
  | none => simp
  | some row =>
    by_cases h : row.2.status = .resolved
    · simp [h]
    · simp [h]

theorem acceptNew_eq (env : Crates) (publicUrl : Option String) (req : IngestProject)
    (body : Bytes) (p : Prepared) (storageId : String) (now : Int) (db : Db) :
    acceptNew env publicUrl req p storageId now
        { db with rawEvents := db.rawEvents ++ [rawRow req body p storageId now] } =
      if db.events.any fun e => e.id = storageId then .error (.database (.unique "events.id"))
      else .ok (accepted env publicUrl req body p storageId now db,
        ⟨p.eventId, issueOf req p db.issues, p.fingerprint, false⟩) := by
  simp only [acceptNew, upsertIssue_eq, addLabels_eq, insertEvent]
  split
  · rfl
  · simp only [bind, Except.bind, notify, touchKey, accepted]
    cases kindOf req p db.issues <;> rfl

theorem insertRawEvent_cases (db : Db) (row : RawEvent) :
    (∃ e, insertRawEvent db row = .error e) ∨
      (insertRawEvent db row = .ok none ∧
        (findRaw db row.projectId row.producerEventId).isSome) ∨
      (insertRawEvent db row = .ok (some { db with rawEvents := db.rawEvents ++ [row] }) ∧
        findRaw db row.projectId row.producerEventId = none ∧ (∀ r ∈ db.rawEvents, r.id ≠ row.id) ∧
        (db.projects.get? row.projectId).isSome ∧ (db.ingestKeys.get? row.ingestKeyId).isSome) := by
  unfold insertRawEvent
  split
  · next h => exact .inr (.inl ⟨rfl, h⟩)
  · next hraw =>
    split
    · exact .inl ⟨_, rfl⟩
    · next hid =>
      split
      · exact .inl ⟨_, rfl⟩
      · next hproject =>
        split
        · exact .inl ⟨_, rfl⟩
        · next hkey =>
          exact .inr (.inr ⟨rfl, by simpa using hraw, by simpa using hid,
            Option.isSome_iff_ne_none.mpr (by simpa using hproject),
            Option.isSome_iff_ne_none.mpr (by simpa using hkey)⟩)

/-- A request is refused without a trace, repeats an accepted event, or
accepts a new one. -/
theorem ingest_cases (env : Crates) (publicUrl : Option String) (req : IngestProject)
    (body : Bytes) (storageId : String) (now : Int) (db : Db) :
    Outcome env publicUrl req body storageId now db
      (ingest env publicUrl req body storageId now db) := by
  unfold ingest
  split
  · next e _ => exact .refused e
  · next p hp =>
    rcases commit_cases (ingestTx env publicUrl req body p storageId now) db with
      ⟨db', a, htx, hc⟩ | ⟨e, -, hc⟩
    · rw [hc]
      change (insertRawEvent db (rawRow req body p storageId now) >>= _) = _ at htx
      rcases insertRawEvent_cases db (rawRow req body p storageId now) with
        ⟨e, he⟩ | ⟨hi, hraw⟩ | ⟨hi, hraw, hid, hproject, hkey⟩
      · simp [he, bind, Except.bind] at htx
      · simp only [hi, bind, Except.bind, repeatAccepted] at htx
        split at htx
        · cases htx
        · next row hrow =>
          split at htx
          · cases htx
          · next hhash =>
            cases htx
            refine .repeated p _ _ _ hp hraw hrow fun stored hs => ?_
            simpa [hs] using hhash
      · simp only [hi, bind, Except.bind, acceptNew_eq] at htx
        split at htx
        · cases htx
        · next hevent =>
          cases htx
          exact .accepted p hp hraw hid hproject hkey (by simpa using hevent)
    · rw [hc]
      exact .refused e

section Upsert

variable (req : IngestProject) (p : Prepared) (now : Int) (issues : Table Issue)

/-- An accepted event recurs in the issue of its fingerprint or creates it. -/
theorem upsert_cases :
    (∃ i, issues.get? (issueOf req p issues) = some i ∧ i.projectId = req.projectId ∧
      i.fingerprint = p.fingerprint ∧
      kindOf req p issues = (if i.status = .resolved then some .regressed else none) ∧
      issuesAfter req p now issues =
        issues.update (fun id _ => id = issueOf req p issues) (recur now)) ∨
    ((∀ id i, issues.get? id = some i →
        ¬ (i.projectId = req.projectId ∧ i.fingerprint = p.fingerprint)) ∧
      issueOf req p issues = issues.nextId ∧ kindOf req p issues = some .created ∧
      issuesAfter req p now issues =
        issues.insert ⟨req.projectId, p.fingerprint, p.title, .unresolved, 1, now, now⟩) := by
  cases h : existingIssue issues req.projectId p.fingerprint with
  | some row =>
    obtain ⟨hget, hrow⟩ := issues.find?_some h
    simp only [decide_eq_true_eq] at hrow
    have hid : issueOf req p issues = row.1 := by simp only [issueOf, h]
    refine .inl ⟨row.2, by rw [hid]; exact hget, hrow.1, hrow.2, ?_, ?_⟩
    · simp only [kindOf, h]
    · simp only [issuesAfter, h, hid]
  | none =>
    refine .inr ⟨fun id i hi => ?_, ?_, ?_, ?_⟩
    · simpa using issues.find?_none h hi
    · simp only [issueOf, h]
    · simp only [kindOf, h]
    · simp only [issuesAfter, h]

/-- Project and fingerprint of an issue do not change when an event arrives. -/
theorem issuesAfter_old {id : Int} {i : Issue} (hi : issues.get? id = some i) :
    ∃ j, (issuesAfter req p now issues).get? id = some j ∧ j.projectId = i.projectId ∧
      j.fingerprint = i.fingerprint := by
  rcases upsert_cases req p now issues with ⟨-, -, -, -, -, hafter⟩ | ⟨-, -, -, hafter⟩
  · rw [hafter, Table.get?_update, hi]
    by_cases h : id = issueOf req p issues
    · exact ⟨_, rfl, by simp [h, recur], by simp [h, recur]⟩
    · exact ⟨_, rfl, by simp [h], by simp [h]⟩
  · rw [hafter, Table.get?_insert, if_neg, hi]
    · exact ⟨i, rfl, rfl, rfl⟩
    · intro h
      have := issues.le_seq_of_get? hi
      simp only [h, Table.nextId] at this
      omega

/-- The issue of the event has its project and fingerprint. -/
theorem issuesAfter_target : ∃ i, (issuesAfter req p now issues).get? (issueOf req p issues) = some i ∧
    i.projectId = req.projectId ∧ i.fingerprint = p.fingerprint := by
  rcases upsert_cases req p now issues with ⟨i, hi, hp, hf, -, hafter⟩ | ⟨-, hid, -, hafter⟩
  · rw [hafter, Table.get?_update, hi]
    exact ⟨_, rfl, by simpa [recur] using hp, by simpa [recur] using hf⟩
  · rw [hafter, hid, Table.get?_insert, if_pos rfl]
    exact ⟨_, rfl, rfl, rfl⟩

/-- Every issue afterwards was there before, or is the one just created. -/
theorem issuesAfter_cases {id : Int} {j : Issue}
    (hj : (issuesAfter req p now issues).get? id = some j) :
    (∃ i, issues.get? id = some i ∧ j.projectId = i.projectId ∧ j.fingerprint = i.fingerprint ∧
      j = if id = issueOf req p issues then recur now i else i) ∨
    (issues.get? id = none ∧ id = issueOf req p issues ∧
      (∀ a i, issues.get? a = some i →
        ¬ (i.projectId = req.projectId ∧ i.fingerprint = p.fingerprint)) ∧
      j = ⟨req.projectId, p.fingerprint, p.title, .unresolved, 1, now, now⟩) := by
  rcases upsert_cases req p now issues with ⟨-, -, -, -, -, hafter⟩ | ⟨hnew, hid, -, hafter⟩
  · rw [hafter, Table.get?_update, Option.map_eq_some_iff] at hj
    obtain ⟨i, hi, rfl⟩ := hj
    refine .inl ⟨i, hi, ?_⟩
    by_cases h : id = issueOf req p issues <;> simp [h, recur]
  · rw [hafter, Table.get?_insert] at hj
    split at hj
    · next h =>
      simp only [Option.some.injEq] at hj
      exact .inr ⟨by simp [h], by rw [h, hid], hnew, hj.symm⟩
    · next h => exact .inl ⟨j, hj, rfl, rfl, by rw [if_neg (by rwa [hid])]⟩

end Upsert

theorem prepare_bodyHash {env : Crates} {body : Bytes} {p : Prepared}
    (h : prepare env body = .ok p) : p.bodyHash = env.sha256Hex body := by
  unfold prepare at h
  repeat' split at h
  all_goals cases h
  rfl

theorem findRaw_eq_none {db : Db} {projectId : Int} {producerEventId : String} :
    findRaw db projectId producerEventId = none ↔
      ∀ r ∈ db.rawEvents, ¬ (r.projectId = projectId ∧ r.producerEventId = producerEventId) := by
  simp [findRaw, List.find?_eq_none]

end Zbierak.Ingest
