import Zbierak.Directory
import Zbierak.Idempotence
import Zbierak.Notifications
import Zbierak.Sdk
import Mathlib.Logic.Function.Basic

/-!
# From capture to store

Clients, their spool directories, the requests on the network and the service
as one system. A request may be lost, handled late or answered by nobody, a
client may crash between any two steps, and the same event may be sent any
number of times. What the handling of a request adds to the store is charged to
the capture that the request comes from.
-/
namespace Zbierak.EndToEnd

open Server Sdk

/-- A request on the network. `origin` is the capture it comes from; the service
does not see it. -/
structure Post where
  token : Option String
  body : Bytes
  origin : Nat
  deriving DecidableEq

/-- A request whose ingestion key the service has checked. -/
structure Admitted where
  post : Post
  req : Ingest.IngestProject
  deriving DecidableEq

/-- What handling one request added to events, event counts and the outbox. -/
structure Contribution where
  origin : Nat
  rows : List EventRow
  counts : List (Int × Int)
  queued : List (Int × String)

structure World where
  db : Db
  disk : String → Spool.Directory
  clients : Nat → Process
  network : List Post
  admitted : List Admitted
  captured : List Event
  ledger : List Contribution

/-- The clients and the slug in the URL that all of them post to. -/
structure Deployment where
  setup : Setup
  slug : String
  config : Nat → Config

/-- Choices of the environment. `operate` is any other operation of the service. -/
inductive Label where
  | capture (client : Nat) (event : Event) (uuid timestamp : String) (breadcrumbs : List Breadcrumb)
  | spill (client index : Nat) (name : String) (interruption : Option Spool.Interruption)
  | command (client : Nat) (command : Command)
  | receive (client : Nat)
  | timeout (client : Nat)
  | transmit (client : Nat)
  | answer (client : Nat) (answer : Except String Nat)
  | store (client : Nat) (name : String) (interruption : Option Spool.Interruption)
  | pick (client : Nat)
  | pause (client : Nat)
  | remove (client : Nat) (removed : Bool)
  | crash (client : Nat)
  | lose (post : Post)
  | authenticate (post : Post)
  | ingest (request : Admitted) (storageId : String) (now : Int)
  | operate (now : Int) (op : Op)

/-- The event count of an issue, zero before it exists. -/
def countOf (db : Db) (issueId : Int) : Int := ((db.issues.get? issueId).map Issue.eventCount).getD 0

/-- The issues whose event count moved, and by how much. -/
def counted (before after : Db) : List (Int × Int) :=
  (after.issues.rows.filter fun r => r.2.eventCount ≠ countOf before r.1).map fun r =>
    (r.1, r.2.eventCount - countOf before r.1)

def contribution (origin : Nat) (before after : Db) : Contribution where
  origin := origin
  rows := after.events.drop before.events.length
  counts := counted before after
  queued := Notifications.targets (Notifications.queued before after)

/-- The credentials of a request, as the service checks them. -/
def authenticate (d : Deployment) (db : Db) (post : Post) : Except AppError Ingest.IngestProject :=
  match post.token with
  | none => .error .unauthorized
  | some token =>
    (Auth.ingestKeyProject d.setup.env db token d.slug).map fun key => ⟨key.1, key.2, d.slug⟩

def World.setSender (w : World) (client : Nat) (sender : Sender) : World :=
  { w with clients := Function.update w.clients client { w.clients client with sender } }

def World.setDisk (w : World) (dir : String) (files : Spool.Directory) : World :=
  { w with disk := Function.update w.disk dir files }

/-- A prepared event is counted as captured when the client takes it. -/
def capture (d : Deployment) (w : World) (client : Nat) (event : Event) (uuid timestamp : String)
    (breadcrumbs : List Breadcrumb) : World :=
  let config := d.config client
  match config.context.prepare d.setup.env uuid timestamp breadcrumbs event with
  | .error _ => w
  | .ok prepared =>
    match (w.clients client).enqueue config.queueCapacity ⟨w.captured.length, prepared⟩ with
    | .error _ => w
    | .ok process => { w with
        clients := Function.update w.clients client process
        captured := w.captured ++ [prepared] }

/-- Write an event of the client to its spool directory. -/
def spool (d : Deployment) (w : World) (client : Nat) (name : String) (item : Item)
    (interruption : Option Spool.Interruption) : World :=
  let config := d.config client
  w.setDisk config.spoolDir (Spool.store d.setup.env config.spoolMaxBytes name item.origin item.event
    interruption (w.disk config.spoolDir))

/-- Where the sender goes with what it read from the spool. -/
def redeliver : Option (Spool.File × Event) → Sender
  | some (file, event) => .redelivering file.name ⟨file.origin, event⟩
  | none => .waiting

def step (d : Deployment) (w : World) : Label → Option World
  | .capture client event uuid timestamp breadcrumbs =>
    some (capture d w client event uuid timestamp breadcrumbs)
  | .spill client index name interruption =>
    ((w.clients client).spilling[index]?).map fun item =>
      let process := { w.clients client with spilling := (w.clients client).spilling.eraseIdx index }
      spool d { w with clients := Function.update w.clients client process } client name item
        interruption
  | .command client command =>
    match command with
    | .event _ => none
    | .flush | .shutdown =>
      let process := w.clients client
      some { w with
        clients := Function.update w.clients client
          { process with queue := process.queue ++ [command] } }
  | .receive client =>
    (w.clients client).receive.map fun process =>
      { w with clients := Function.update w.clients client process }
  | .timeout client =>
    match (w.clients client).sender with
    | .waiting => some (w.setSender client .draining)
    | _ => none
  | .transmit client =>
    (w.clients client).sender.outgoing.bind fun (item, posted) =>
      match d.setup.env.eventToVec item.event with
      | .ok body =>
        let post := ⟨(d.config client).token, body, item.origin⟩
        some { w.setSender client posted with network := post :: w.network }
      | .error _ => (posted.settle .retry).map (w.setSender client)
  | .answer client answer =>
    ((w.clients client).sender.settle (outcome answer)).map (w.setSender client)
  | .store client name interruption =>
    match (w.clients client).sender with
    | .storing item => some (spool d (w.setSender client .waiting) client name item interruption)
    | _ => none
  | .pick client =>
    match (w.clients client).sender with
    | .draining =>
      let dir := (d.config client).spoolDir
      let (files, found) := Spool.oldest d.setup.env (w.disk dir)
      some ((w.setDisk dir files).setSender client (redeliver found))
    | _ => none
  | .pause client =>
    match (w.clients client).sender with
    | .draining => some (w.setSender client .waiting)
    | _ => none
  | .remove client removed =>
    match (w.clients client).sender with
    | .removing file =>
      let dir := (d.config client).spoolDir
      let files := if removed then Spool.remove file (w.disk dir) else w.disk dir
      some ((w.setDisk dir files).setSender client .draining)
    | _ => none
  | .crash client => some { w with clients := Function.update w.clients client .start }
  | .lose post => if post ∈ w.network then some { w with network := w.network.erase post } else none
  | .authenticate post =>
    if post ∈ w.network then
      match authenticate d w.db post with
      | .ok req =>
        some { w with network := w.network.erase post, admitted := ⟨post, req⟩ :: w.admitted }
      | .error _ => some { w with network := w.network.erase post }
    else none
  | .ingest request storageId now =>
    if request ∈ w.admitted then
      let op := Op.request (.ingest request.req request.post.body storageId)
      let db := (exec d.setup now w.db op).2
      some { w with
        db
        admitted := w.admitted.erase request
        ledger := w.ledger ++ [contribution request.post.origin w.db db] }
    else none
  | .operate now op => some { w with db := (exec d.setup now w.db op).2 }

end Zbierak.EndToEnd
