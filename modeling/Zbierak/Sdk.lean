import Zbierak.Spool

/-!
# The blocking client

`capture_event` prepares an event and queues it; one sender thread posts queued
events and, when it is idle or asked to flush, the spooled ones. The sender is
a state machine whose states stand between its blocking calls.
-/
namespace Zbierak.Sdk

inductive CaptureError where
  | invalidEvent (error : ValidationError)
  | redactorPanicked
  | senderStopped
  deriving DecidableEq, Repr

/-- Defaults of a client. A redactor that panics returns `none`. -/
structure CaptureContext where
  release : Option String
  environment : Option String
  platform : Option String
  redactor : Option (Event → Option Event)

/-- Fill what the caller left out, redact, and validate. -/
def CaptureContext.prepare (env : Crates) (context : CaptureContext) (uuid timestamp : String)
    (breadcrumbs : List Breadcrumb) (event : Event) : Except CaptureError Event :=
  let filled := { event with
    eventId := if event.eventId = "" then uuid else event.eventId
    timestamp := if event.timestamp = "" then timestamp else event.timestamp
    release := event.release.or context.release
    environment := event.environment.or context.environment
    platform := event.platform.or context.platform
    breadcrumbs := if event.breadcrumbs.isEmpty then breadcrumbs else event.breadcrumbs }
  match context.redactor.elim (some filled) fun redactor => redactor filled with
  | none => .error .redactorPanicked
  | some redacted =>
    match redacted.validate env.parseRfc3339 with
    | .error error => .error (.invalidEvent error)
    | .ok () => .ok redacted

/-- Outcome of one delivery attempt. -/
inductive Delivery where
  | delivered | permanentFailure | retry
  deriving DecidableEq, Repr

def isRetryable (status : Nat) : Bool := (500 ≤ status ∧ status ≤ 599) ∨ status = 408 ∨ status = 429

/-- What `deliver` makes of a response, or of a transport error. -/
def outcome : Except String Nat → Delivery
  | .ok status =>
    if 200 ≤ status ∧ status ≤ 299 then .delivered
    else if isRetryable status then .retry else .permanentFailure
  | .error _ => .retry

/-- An event in the memory of a client, with the number of its capture. -/
structure Item where
  origin : Nat
  event : Event

inductive Command where
  | event (item : Item)
  | flush
  | shutdown

/-- Where the sender thread is: waiting for a command, in `deliver` before and
after the request went out, storing an event to retry, and the same in the loop
of `drain_spool` for the file of that name. -/
inductive Sender where
  | waiting
  | delivering (item : Item)
  | posted (item : Item)
  | storing (item : Item)
  | draining
  | redelivering (file : String) (item : Item)
  | reposted (file : String) (item : Item)
  | removing (file : String)
  | stopped

/-- A client process: its queue, the capture threads that found the queue full
and are about to spool their event, and the sender. -/
structure Process where
  queue : List Command
  spilling : List Item
  sender : Sender

/-- A process that has just started. -/
def Process.start : Process := ⟨[], [], .waiting⟩

structure Config where
  token : Option String
  spoolDir : String
  spoolMaxBytes : Nat
  queueCapacity : Nat
  context : CaptureContext

/-- Queue a prepared event, or leave it to the capturing thread to spool. -/
def Process.enqueue (capacity : Nat) (process : Process) (item : Item) :
    Except CaptureError Process :=
  match process.sender with
  | .stopped => .error .senderStopped
  | _ =>
    if process.queue.length < capacity then
      .ok { process with queue := process.queue ++ [.event item] }
    else .ok { process with spilling := process.spilling ++ [item] }

/-- The sender takes its next command, if it is waiting for one. -/
def Process.receive (process : Process) : Option Process :=
  match process.sender, process.queue with
  | .waiting, .event item :: rest => some { process with queue := rest, sender := .delivering item }
  | .waiting, .flush :: rest => some { process with queue := rest, sender := .draining }
  | .waiting, .shutdown :: rest => some { process with queue := rest, sender := .stopped }
  | _, _ => none

/-- Where the sender goes with the outcome of an attempt. -/
def Sender.settle (result : Delivery) : Sender → Option Sender
  | .posted item => match result with
    | .retry => some (.storing item)
    | .delivered | .permanentFailure => some .waiting
  | .reposted file _ => match result with
    | .retry => some .waiting
    | .delivered | .permanentFailure => some (.removing file)
  | _ => none

/-- The event the sender is about to post, and where it waits for the answer. -/
def Sender.outgoing : Sender → Option (Item × Sender)
  | .delivering item => some (item, .posted item)
  | .redelivering file item => some (item, .reposted file item)
  | _ => none

def Command.items : Command → List Item
  | .event item => [item]
  | .flush | .shutdown => []

def Sender.items : Sender → List Item
  | .delivering item | .posted item | .storing item => [item]
  | .redelivering _ item | .reposted _ item => [item]
  | .waiting | .draining | .removing _ | .stopped => []

/-- Every event in the memory of the process. -/
def Process.items (process : Process) : List Item :=
  process.queue.flatMap Command.items ++ process.spilling ++ process.sender.items

theorem items_enqueue {capacity : Nat} {process process' : Process} {item : Item}
    (h : process.enqueue capacity item = .ok process') :
    ∀ i ∈ process'.items, i ∈ process.items ∨ i = item := by
  unfold Process.enqueue at h
  split at h
  · cases h
  · split at h <;> cases h <;> intro i hi <;>
      simp only [Process.items, List.flatMap_append, List.mem_append, List.flatMap_cons,
        List.flatMap_nil, List.append_nil, Command.items, List.mem_singleton] at hi ⊢ <;> tauto

theorem items_receive {process process' : Process} (h : process.receive = some process') :
    ∀ i ∈ process'.items, i ∈ process.items := by
  unfold Process.receive at h
  split at h
  · next hsender hqueue =>
    cases h
    intro i hi
    simp only [Process.items, Sender.items, Command.items, hsender, hqueue, List.flatMap_cons,
      List.mem_append, List.mem_singleton] at hi ⊢
    tauto
  · next hsender hqueue =>
    cases h
    intro i hi
    simpa [Process.items, Sender.items, Command.items, hsender, hqueue] using hi
  · next hsender hqueue =>
    cases h
    intro i hi
    simpa [Process.items, Sender.items, Command.items, hsender, hqueue] using hi
  · cases h

theorem items_settle {result : Delivery} {sender sender' : Sender}
    (h : sender.settle result = some sender') : ∀ i ∈ sender'.items, i ∈ sender.items := by
  cases sender <;> cases result <;> simp [Sender.settle] at h <;> subst h <;> simp [Sender.items]

theorem items_outgoing {item : Item} {sender sender' : Sender}
    (h : sender.outgoing = some (item, sender')) : sender.items = [item] ∧ sender'.items = [item] := by
  cases sender <;> simp [Sender.outgoing] at h <;> obtain ⟨rfl, rfl⟩ := h <;> exact ⟨rfl, rfl⟩

end Zbierak.Sdk
