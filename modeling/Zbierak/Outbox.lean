import Zbierak.NetPolicy
import Zbierak.Schema

/-!
# Outbox delivery

A worker claims the oldest due row for sixty seconds, posts it from a client
that is pinned to checked addresses, and either marks it delivered or puts it
back with a delay. None of the three updates looks at what the others did.
-/
namespace Zbierak.Outbox

open NetPolicy

structure Delivery where
  id : Int
  payloadJson : String
  attempts : Int
  kind : EndpointKind
  url : String
  secret : Option String
  secretEncrypted : Int
  deriving DecidableEq, Repr

/-- The condition under which `claim` picks a row. -/
def claimable (row : OutboxRow) (now : Int) : Bool :=
  row.deliveredAt = none ∧ row.availableAt ≤ now ∧
    (row.lockedAt = none ∨ row.lockedAt.any fun at_ => at_ < now - 60)

def lockRow (now : Int) (row : OutboxRow) : OutboxRow :=
  { row with lockedAt := some now, attempts := row.attempts + 1 }

/-- Lock the first due row and return it with its endpoint. -/
def claim (now : Int) (db : Db) : Except AppError (Option Delivery) × Db :=
  match db.outbox.find? fun _ row => claimable row now with
  | none => (.ok none, db)
  | some (id, row) =>
    let db' := { db with outbox := db.outbox.update (fun i _ => i = id) (lockRow now) }
    match db.endpoints.get? row.endpointId with
    | none => (.error (.database (.decode "kind")), db')
    | some e =>
      (.ok (some ⟨id, row.payloadJson, row.attempts + 1, e.kind, e.url, e.secret,
        e.secretEncrypted⟩), db')

def completeRow (now : Int) (row : OutboxRow) : OutboxRow :=
  { row with deliveredAt := some now, lockedAt := none }

def markDelivered (now id : Int) (db : Db) : Db :=
  { db with outbox := db.outbox.update (fun i _ => i = id) (completeRow now) }

def retryDelay (attempts : Int) : Int :=
  if attempts ≥ 12 then 86400 else min (5 * 2 ^ (min (max attempts 0) 11).toNat) 3600

def rescheduleRow (now attempts : Int) (error : String) (row : OutboxRow) : OutboxRow :=
  { row with
    lockedAt := none
    availableAt := now + retryDelay attempts
    lastError := some (Text.truncateUtf8 error 1000) }

def fail (now deliveryId attempts : Int) (error : String) (db : Db) : Db :=
  { db with
    outbox := db.outbox.update (fun i _ => i = deliveryId) (rescheduleRow now attempts error) }

/-- Host and port that a delivery URL leads to. -/
def destination (env : Crates) (rawUrl : String) : Except String (String × Nat) :=
  match env.parseUrl rawUrl with
  | .error error => .error s!"invalid destination URL: {error}"
  | .ok url =>
    if url.scheme ≠ "http" ∧ url.scheme ≠ "https" then .error "destination must be HTTP or HTTPS"
    else match url.host with
      | none => .error "destination URL has no host"
      | some host => .ok (host, url.port.getD (if url.scheme = "https" then 443 else 80))

/-- The address list the client is pinned to. -/
def pinnedAddresses (env : Crates) (resolve : Resolver) (rawUrl : String) :
    Except String (List SocketAddr) :=
  match destination env rawUrl with
  | .error error => .error error
  | .ok (host, port) => (resolveAllowedWith host port resolve).mapError PolicyError.display

def pinnedClient (env : Crates) (resolve : Resolver) (rawUrl : String) :
    Except String (List SocketAddr) := do
  let addresses ← pinnedAddresses env resolve rawUrl
  let (host, _) ← destination env rawUrl
  (env.buildClient host).mapError fun error => s!"HTTP client build failed: {error}"
  .ok addresses

def signingSecret (env : Crates) (webhookKey : Option Bytes) (secretEncrypted : Int)
    (stored : String) : Except String String :=
  if secretEncrypted = 0 then .ok stored
  else match webhookKey with
    | none => .error "ZBIERAK_SECRET_KEY is not configured but an encrypted secret exists"
    | some key => env.decryptSecret key stored

/-- A request about to be sent. -/
structure Post where
  addresses : List SocketAddr
  url : String
  signature : Option String
  body : String
  deriving DecidableEq, Repr

/-- Everything `deliver` does before it sends; an error is a failed attempt
that sent nothing. -/
def request (env : Crates) (webhookKey : Option Bytes) (resolve : Resolver) (delivery : Delivery) :
    Except String Post := do
  let addresses ← pinnedClient env resolve delivery.url
  let signature ← match delivery.kind, delivery.secret with
    | .webhook, some stored => do
      let secret ← signingSecret env webhookKey delivery.secretEncrypted stored
      let mac := env.hmacSha256 secret delivery.payloadJson
      .ok (some s!"sha256={mac}")
    | _, _ => .ok none
  .ok ⟨addresses, delivery.url, signature, delivery.payloadJson⟩

/-- What came back for a request: a status, or a transport error. -/
abbrev Answer := Except String Nat

def isSuccess (status : Nat) : Bool := 200 ≤ status ∧ status ≤ 299

/-- Error text of a failed attempt, or `none` for a success. -/
def failureText (env : Crates) : Answer → Option String
  | .ok status =>
    let text := env.statusText status
    if isSuccess status then none else some s!"HTTP {text}"
  | .error error => some error

/-- Finish an attempt that was answered. -/
def conclude (env : Crates) (now : Int) (delivery : Delivery) (answer : Answer) (db : Db) : Db :=
  match failureText env answer with
  | none => markDelivered now delivery.id db
  | some error => fail now delivery.id delivery.attempts error db

/-- A request carries the payload of the delivery to its URL. -/
theorem request_ok {env : Crates} {webhookKey : Option Bytes} {resolve : Resolver}
    {delivery : Delivery} {post : Post} (h : request env webhookKey resolve delivery = .ok post) :
    post.body = delivery.payloadJson ∧ post.url = delivery.url := by
  obtain ⟨addresses, -, h⟩ := Except.bind_ok h
  dsimp only at h
  split at h
  · obtain ⟨secret, -, h⟩ := Except.bind_ok h
    cases h
    exact ⟨rfl, rfl⟩
  · cases h
    exact ⟨rfl, rfl⟩

/-- A claim locks one due row, or finds none. -/
theorem claim_cases (now : Int) (db : Db) :
    claim now db = (.ok none, db) ∧
        (∀ id row, db.outbox.get? id = some row → claimable row now = false) ∨
      ∃ id row, db.outbox.get? id = some row ∧ claimable row now = true ∧
        (claim now db).2 = { db with outbox := db.outbox.update (fun i _ => i = id) (lockRow now) } ∧
        (claim now db).1 = match db.endpoints.get? row.endpointId with
          | some e => .ok (some ⟨id, row.payloadJson, row.attempts + 1, e.kind, e.url, e.secret,
              e.secretEncrypted⟩)
          | none => .error (.database (.decode "kind")) := by
  cases h : db.outbox.find? fun _ row => claimable row now with
  | none =>
    refine .inl ⟨by simp [claim, h], fun id row hrow => ?_⟩
    exact db.outbox.find?_none h hrow
  | some found =>
    obtain ⟨hget, hdue⟩ := db.outbox.find?_some h
    refine .inr ⟨found.1, found.2, hget, hdue, ?_, ?_⟩ <;>
      cases he : db.endpoints.get? found.2.endpointId <;> simp [claim, h, he]

end Zbierak.Outbox
