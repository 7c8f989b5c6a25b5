import Zbierak.Lib.Table
import Zbierak.Lib.Nocase
import Zbierak.Domain
import Zbierak.Json

/-!
# The database

One structure per table with the columns the service reads, and the store as
the record of all tables. Tables with an `AUTOINCREMENT` key are `Table`s;
the others are lists in insertion order, and the operations that write them
check the unique indexes. A `CHECK` over a fixed set of spellings becomes an
enumeration.
-/
namespace Zbierak

structure User where
  email : String
  displayName : String
  passwordHash : String
  deriving DecidableEq, Repr

structure SessionRow where
  tokenHash : String
  userId : Int
  csrfToken : String
  expiresAt : Int
  deriving DecidableEq, Repr

structure Project where
  slug : String
  name : String
  description : String
  createdBy : Int
  deriving DecidableEq, Repr

structure Membership where
  projectId : Int
  userId : Int
  role : ProjectRole
  deriving DecidableEq, Repr

structure IngestKey where
  projectId : Int
  name : String
  keyPrefix : String
  keyHash : String
  createdBy : Int
  lastUsedAt : Option Int
  revokedAt : Option Int
  deriving DecidableEq, Repr

structure Issue where
  projectId : Int
  fingerprint : String
  title : String
  status : IssueStatus
  eventCount : Int
  firstSeenAt : Int
  lastSeenAt : Int
  deriving DecidableEq, Repr

structure RawEvent where
  id : String
  projectId : Int
  ingestKeyId : Int
  body : Bytes
  producerEventId : String
  bodyHash : Option String
  receivedAt : Int
  deriving DecidableEq, Repr

structure EventRow where
  id : String
  projectId : Int
  issueId : Int
  fingerprint : String
  payloadJson : String
  receivedAt : Int
  deriving DecidableEq, Repr

structure Comment where
  issueId : Int
  userId : Int
  body : String
  createdAt : Int
  updatedAt : Option Int
  updatedBy : Option Int
  deletedAt : Option Int
  deriving DecidableEq, Repr

inductive EndpointKind where
  | webhook | discord
  deriving DecidableEq, Repr

structure Endpoint where
  projectId : Int
  name : String
  kind : EndpointKind
  url : String
  secret : Option String
  secretEncrypted : Int
  enabled : Bool
  createdBy : Int
  deriving DecidableEq, Repr

structure OutboxRow where
  endpointId : Int
  eventType : String
  payloadJson : String
  attempts : Int
  availableAt : Int
  lockedAt : Option Int
  deliveredAt : Option Int
  lastError : Option String
  deriving DecidableEq, Repr

inductive ActivityKind where
  | status | comment | regression | tags | commentEdited | commentDeleted
  deriving DecidableEq, Repr

/-- The kinds that record a change of the issue's status. -/
def ActivityKind.movesStatus : ActivityKind → Bool
  | status | regression => true
  | comment | tags | commentEdited | commentDeleted => false

/-- `details` is the tree whose text the `details_json` column holds. -/
structure Activity where
  issueId : Int
  userId : Option Int
  kind : ActivityKind
  details : Value
  createdAt : Int
  deriving Repr

structure IssueTag where
  issueId : Int
  tag : String
  deriving DecidableEq, Repr

structure LoginThrottle where
  identityHash : String
  failures : Nat
  lockedUntil : Option Int
  updatedAt : Int
  deriving DecidableEq, Repr

structure ApiToken where
  userId : Int
  name : String
  tokenPrefix : String
  tokenHash : String
  lastUsedAt : Option Int
  revokedAt : Option Int
  deriving DecidableEq, Repr

structure UserAvatar where
  userId : Int
  contentType : String
  byteSize : Int
  sha256 : String
  bytes : Bytes
  updatedAt : Int
  deriving DecidableEq, Repr

structure AuditRow where
  userId : Option Int
  action : String
  targetType : Option String
  targetId : Option String
  details : Value
  deriving Repr

structure Db where
  users : Table User
  sessions : Table SessionRow
  projects : Table Project
  memberships : List Membership
  ingestKeys : Table IngestKey
  issues : Table Issue
  rawEvents : List RawEvent
  events : List EventRow
  comments : Table Comment
  endpoints : Table Endpoint
  outbox : Table OutboxRow
  activity : Table Activity
  issueTags : List IssueTag
  loginThrottle : List LoginThrottle
  apiTokens : Table ApiToken
  userAvatars : List UserAvatar
  auditLog : Table AuditRow

/-- The store right after the migrations. -/
def Db.empty : Db where
  users := .empty
  sessions := .empty
  projects := .empty
  memberships := []
  ingestKeys := .empty
  issues := .empty
  rawEvents := []
  events := []
  comments := .empty
  endpoints := .empty
  outbox := .empty
  activity := .empty
  issueTags := []
  loginThrottle := []
  apiTokens := .empty
  userAvatars := []
  auditLog := .empty

/-- A write transaction computes the store to commit or fails. -/
abbrev Tx (α : Type) := Db → Except AppError (Db × α)

/-- Run a transaction: an error before the commit rolls every statement back. -/
def commit {α : Type} (tx : Tx α) (db : Db) : Except AppError α × Db :=
  match tx db with
  | .ok (db', a) => (.ok a, db')
  | .error e => (.error e, db)

theorem commit_ok {α : Type} {tx : Tx α} {db db' : Db} {a : α} (h : tx db = .ok (db', a)) :
    commit tx db = (.ok a, db') := by
  simp [commit, h]

theorem commit_error {α : Type} {tx : Tx α} {db : Db} {e : AppError} (h : tx db = .error e) :
    commit tx db = (.error e, db) := by
  simp [commit, h]

/-- A committed store is the one the transaction computed, or the old one. -/
theorem commit_cases {α : Type} (tx : Tx α) (db : Db) :
    (∃ db' a, tx db = .ok (db', a) ∧ commit tx db = (.ok a, db')) ∨
      ∃ e, tx db = .error e ∧ commit tx db = (.error e, db) := by
  cases h : tx db with
  | ok r => exact .inl ⟨r.1, r.2, rfl, commit_ok h⟩
  | error e => exact .inr ⟨e, rfl, commit_error h⟩

/-- What holds of the store before and of every store to commit holds after. -/
theorem commit_snd {α : Type} {tx : Tx α} {db : Db} (q : Db → Prop) (hdb : q db)
    (h : ∀ db' a, tx db = .ok (db', a) → q db') : q (commit tx db).2 := by
  rcases commit_cases tx db with ⟨db', a, htx, hc⟩ | ⟨e, -, hc⟩
  · rw [hc]
    exact h db' a htx
  · rw [hc]
    exact hdb

/-- Equality of two texts under SQLite's `NOCASE` collation. -/
def nocaseEq (a b : String) : Bool := Nocase.key a = Nocase.key b

theorem nocaseEq_iff {a b : String} : nocaseEq a b = true ↔ Nocase.key a = Nocase.key b := by
  simp [nocaseEq]

/-- Texts that differ after a NUL only are equal. -/
example : nocaseEq (String.ofList ['a', '@', Nocase.nul, 'b']) (String.ofList ['A', '@', Nocase.nul, 'c']) = true := by
  decide

/-- The unique indexes that authorization relies on: project slugs, without
regard to case, and one membership for each project and user. -/
structure Db.UniqueKeys (db : Db) : Prop where
  slugs : ∀ a b p q, db.projects.get? a = some p → db.projects.get? b = some q →
    nocaseEq p.slug q.slug = true → a = b
  memberships : ∀ m ∈ db.memberships, ∀ n ∈ db.memberships,
    m.projectId = n.projectId → m.userId = n.userId → m = n

/-- `audit::record`. -/
def Db.record (db : Db) (userId : Option Int) (action : String) (targetType targetId : Option String)
    (details : Value) : Db :=
  { db with auditLog := db.auditLog.insert ⟨userId, action, targetType, targetId, details⟩ }

/-- Run `write` and insert an audit row in one transaction. `fault` is the error
of that insert, which rolls the write back. -/
def audited {α : Type} (fault : Option AppError) (row : AuditRow) (write : Tx α) : Tx α := fun db => do
  let (changed, a) ← write db
  match fault with
  | some error => .error error
  | none =>
    .ok (changed.record row.userId row.action row.targetType row.targetId row.details, a)

theorem audited_ok {α : Type} {row : AuditRow} {fault : Option AppError} {write : Tx α} {db db' : Db}
    {a : α} (h : audited fault row write db = .ok (db', a)) :
    fault = none ∧ ∃ changed, write db = .ok (changed, a) ∧
      db' = { changed with auditLog := changed.auditLog.insert row } := by
  unfold audited at h
  cases hwrite : write db with
  | error e =>
    rw [hwrite] at h
    cases h
  | ok written =>
    obtain ⟨changed, b⟩ := written
    rw [hwrite] at h
    cases fault with
    | some error => cases h
    | none =>
      cases h
      exact ⟨rfl, changed, rfl, rfl⟩

end Zbierak
