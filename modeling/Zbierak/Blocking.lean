import Zbierak.Sdk

/-!
# The blocking client and its spool

Capturing threads and the sender thread of one client, step by step. The spool
lock is held for the whole of `Spool::store` and for the search of
`drain_spool`, but not while `drain_spool` deletes the file it has sent. The last
clone to be dropped asks the sender to stop and joins it.
-/
namespace Zbierak.Blocking

open Sdk

/-- `{n:020}`. -/
def padded (n : Nat) : String :=
  String.ofList (List.replicate (20 - (Nat.toDigits 10 n).length) '0' ++ Nat.toDigits 10 n)

/-- The name of a spool file. -/
def fileName (timestamp sequence : Nat) (uuid : String) : String :=
  padded timestamp ++ "-" ++ padded sequence ++ "-" ++ uuid ++ ".json"

/-- Who called `Spool::store`. -/
inductive Caller where
  | capture | sender
  deriving DecidableEq, Repr

/-- Where `Spool::store` is: about to write the encoded event, about to list the
directory, or deleting the listed files while their total is over the bound. -/
inductive Phase where
  | writing (bytes : Bytes)
  | bounding
  | evicting (total : Nat) (files : List Spool.File)

/-- A call of `Spool::store`, with the lock. -/
structure Storing where
  caller : Caller
  item : Item
  phase : Phase

/-- The clones of a client: some are left, the last one is being dropped, or it
has asked the sender to stop and joins it. -/
inductive Handles where
  | held | dropping | joining
  deriving DecidableEq, Repr

/-- `captured` numbers the captures. `accepted` holds the events whose capture
returned their identifier, `answers` every HTTP status with the capture it is
about, `evicted` the captures whose file was deleted to meet the bound, and
`unstored` those the sender could not store. -/
structure World where
  client : Process
  storing : Option Storing
  disk : Spool.Directory
  sequence : Nat
  handles : Handles
  captured : Nat
  accepted : List Item
  answers : List (Nat × Nat)
  evicted : List Nat
  unstored : List Nat

/-- A number above those of all captures on disk. -/
def nextOrigin : Spool.Directory → Nat
  | [] => 0
  | f :: fs => max (f.origin + 1) (nextOrigin fs)

/-- A client that has just been built over the files an earlier one left. -/
def World.start (leftover : Spool.Directory) (sequence : Nat) : World where
  client := .start
  storing := none
  disk := leftover
  sequence := sequence
  handles := .held
  captured := nextOrigin leftover
  accepted := []
  answers := []
  evicted := []
  unstored := []

/-- Choices of the environment. `served` tells whether the file system did what
it was asked, `reads` how many files it could read. -/
inductive Label where
  | capture (event : Event) (uuid timestamp : String) (breadcrumbs : List Breadcrumb)
  | flush
  | drop
  | shutdown
  | receive
  | timeout
  | transmit
  | answer (answer : Except String Nat)
  | lockCapture (index : Nat)
  | lockSender
  | place (served : Bool) (timestamp : Nat) (uuid : String)
  | list (served : Bool)
  | evict (served : Bool)
  | pick (reads : Nat)
  | pause
  | remove (served : Bool)

def World.setSender (w : World) (sender : Sender) : World :=
  { w with client := { w.client with sender } }

/-- `capture_event` up to the end of `try_send`. An event that was queued is
accepted, one that found the queue full is not yet. -/
def capture (env : Crates) (config : Config) (w : World) (event : Event) (uuid timestamp : String)
    (breadcrumbs : List Breadcrumb) : World :=
  match config.context.prepare env uuid timestamp breadcrumbs event with
  | .error _ => w
  | .ok prepared =>
    let item : Item := ⟨w.captured, prepared⟩
    match w.client.enqueue config.queueCapacity item with
    | .error _ => w
    | .ok client => { w with
        client
        captured := w.captured + 1
        accepted := if w.client.queue.length < config.queueCapacity then item :: w.accepted
          else w.accepted }

/-- Queue a command that is not an event, if there is room. -/
def push (config : Config) (w : World) (command : Command) : Option World :=
  if w.client.queue.length < config.queueCapacity then
    some { w with client := { w.client with queue := w.client.queue ++ [command] } }
  else none

/-- `Spool::store` returns to its caller. -/
def finish (w : World) (caller : Caller) (item : Item) (ok : Bool) : World :=
  match caller with
  | .capture => { w with
      storing := none
      accepted := if ok then item :: w.accepted else w.accepted }
  | .sender => { w.setSender .waiting with
      storing := none
      unstored := if ok then w.unstored else item.origin :: w.unstored }

/-- `Spool::store` takes the lock and encodes the event. -/
def lock (env : Crates) (config : Config) (w : World) (caller : Caller) (item : Item) :
    Option World :=
  match w.storing with
  | some _ => none
  | none =>
    match Spool.encode env config.spoolMaxBytes item.event with
    | .ok bytes => some { w with storing := some ⟨caller, item, .writing bytes⟩ }
    | .error _ => some (finish w caller item false)

/-- The captures a file of that name holds. -/
def originsOf (name : String) (disk : Spool.Directory) : List Nat :=
  (disk.filter fun f => f.name = name).map Spool.File.origin

/-- One round of the loop in `enforce_bound`. A file that is gone already is an
error. -/
def evict (config : Config) (w : World) (caller : Caller) (item : Item) (served : Bool)
    (total : Nat) : List Spool.File → World
  | [] => finish w caller item true
  | f :: files =>
    if total ≤ config.spoolMaxBytes then finish w caller item true
    else if served ∧ ∃ g ∈ w.disk, g.name = f.name then
      { w with
        disk := Spool.remove f.name w.disk
        evicted := originsOf f.name w.disk ++ w.evicted
        storing := some ⟨caller, item, .evicting (total - f.bytes.length) files⟩ }
    else finish w caller item false

/-- The sender takes the answer to the event it has posted. -/
def answer (w : World) (answer : Except String Nat) : Option World :=
  (w.client.sender.settle (outcome answer)).map fun sender =>
    { w.setSender sender with
      answers := match answer with
        | .ok status => w.client.sender.items.map (fun i => (i.origin, status)) ++ w.answers
        | .error _ => w.answers }

def step (env : Crates) (config : Config) (w : World) : Label → Option World
  | .capture event uuid timestamp breadcrumbs =>
    if w.handles = .held then some (capture env config w event uuid timestamp breadcrumbs) else none
  | .flush => if w.handles = .held then push config w .flush else none
  | .drop =>
    -- a capture borrows the client until it has returned
    if w.handles = .held ∧ w.client.spilling.isEmpty ∧ w.storing.all (·.caller = .sender) then
      some { w with handles := .dropping }
    else none
  | .shutdown =>
    if w.handles = .dropping then
      (push config w .shutdown).map fun w => { w with handles := .joining }
    else none
  | .receive => w.client.receive.map fun client => { w with client }
  | .timeout =>
    match w.client.sender, w.client.queue with
    | .waiting, [] => some (w.setSender .draining)
    | _, _ => none
  | .transmit =>
    w.client.sender.outgoing.bind fun (item, posted) =>
      match env.eventToVec item.event with
      | .ok _ => some (w.setSender posted)
      | .error _ => (posted.settle .retry).map w.setSender
  | .answer response => answer w response
  | .lockCapture index =>
    (w.client.spilling[index]?).bind fun item =>
      lock env config { w with
        client := { w.client with spilling := w.client.spilling.eraseIdx index } } .capture item
  | .lockSender =>
    match w.client.sender with
    | .storing item => lock env config w .sender item
    | _ => none
  | .place served timestamp uuid =>
    match w.storing with
    | some ⟨caller, item, .writing bytes⟩ =>
      let w := { w with sequence := w.sequence + 1 }
      if served then
        some { w with
          disk := Spool.rename ⟨fileName timestamp (w.sequence - 1) uuid, bytes, item.origin⟩ w.disk
          storing := some ⟨caller, item, .bounding⟩ }
      else some (finish w caller item false)
    | _ => none
  | .list served =>
    match w.storing with
    | some ⟨caller, item, .bounding⟩ =>
      if served then
        some { w with
          storing := some ⟨caller, item, .evicting (Spool.size w.disk) (Spool.paths w.disk)⟩ }
      else some (finish w caller item false)
    | _ => none
  | .evict served =>
    match w.storing with
    | some ⟨caller, item, .evicting total files⟩ =>
      some (evict config w caller item served total files)
    | _ => none
  | .pick reads =>
    match w.client.sender, w.storing with
    | .draining, none =>
      let (disk, found) := Spool.oldestLoop env ((Spool.paths w.disk).take reads) w.disk
      let sender := match found with
        | some (file, event) => Sender.redelivering file.name ⟨file.origin, event⟩
        | none => .waiting
      some ({ w with disk }.setSender sender)
    | _, _ => none
  | .pause =>
    match w.client.sender with
    | .draining => some (w.setSender .waiting)
    | _ => none
  | .remove served =>
    match w.client.sender with
    | .removing file =>
      some ({ w with disk := if served then Spool.remove file w.disk else w.disk }.setSender
        .draining)
    | _ => none

variable {env : Crates} {config : Config} {w w' : World}

theorem push_some {command : Command} (h : push config w command = some w') :
    w.client.queue.length < config.queueCapacity ∧
      w' = { w with client := { w.client with queue := w.client.queue ++ [command] } } := by
  simp only [push, Option.ite_none_right_eq_some, Option.some.injEq] at h
  exact ⟨h.1, h.2.symm⟩

theorem lock_some {caller : Caller} {item : Item} (h : lock env config w caller item = some w') :
    w.storing = none ∧
      ((∃ bytes, Spool.encode env config.spoolMaxBytes item.event = .ok bytes ∧
          w' = { w with storing := some ⟨caller, item, .writing bytes⟩ }) ∨
        ((∃ e, Spool.encode env config.spoolMaxBytes item.event = .error e) ∧
          w' = finish w caller item false)) := by
  unfold lock at h
  split at h
  · cases h
  · next hnone =>
    refine ⟨hnone, ?_⟩
    split at h
    · next bytes hencode => exact .inl ⟨bytes, hencode, (Option.some.inj h).symm⟩
    · next e hencode => exact .inr ⟨⟨e, hencode⟩, (Option.some.inj h).symm⟩

/-- One round of `enforce_bound` finds the spool small enough, deletes the file
that is the oldest by its name, or fails. -/
theorem evict_cases (config : Config) (w : World) (caller : Caller) (item : Item) (served : Bool)
    (total : Nat) (files : List Spool.File) :
    ((files = [] ∨ total ≤ config.spoolMaxBytes) ∧
        evict config w caller item served total files = finish w caller item true) ∨
      ∃ f rest, files = f :: rest ∧ ¬ total ≤ config.spoolMaxBytes ∧
        ((served ∧ ∃ g ∈ w.disk, g.name = f.name) ∧
            evict config w caller item served total files = { w with
              disk := Spool.remove f.name w.disk
              evicted := originsOf f.name w.disk ++ w.evicted
              storing := some ⟨caller, item, .evicting (total - f.bytes.length) rest⟩ } ∨
          ¬ (served ∧ ∃ g ∈ w.disk, g.name = f.name) ∧
            evict config w caller item served total files = finish w caller item false) := by
  cases files with
  | nil => exact .inl ⟨.inl rfl, rfl⟩
  | cons f rest =>
    by_cases hfits : total ≤ config.spoolMaxBytes
    · exact .inl ⟨.inr hfits, if_pos hfits⟩
    · refine .inr ⟨f, rest, rfl, hfits, ?_⟩
      rw [evict, if_neg hfits]
      by_cases hserved : served ∧ ∃ g ∈ w.disk, g.name = f.name
      · exact .inl ⟨hserved, if_pos hserved⟩
      · exact .inr ⟨hserved, if_neg hserved⟩

/-! What each label asks of the state, and what it makes of it. -/

theorem step_capture {event : Event} {uuid timestamp : String} {breadcrumbs : List Breadcrumb}
    (h : step env config w (.capture event uuid timestamp breadcrumbs) = some w') :
    w.handles = .held ∧ w' = capture env config w event uuid timestamp breadcrumbs := by
  simp only [step, Option.ite_none_right_eq_some, Option.some.injEq] at h
  exact ⟨h.1, h.2.symm⟩

theorem step_flush (h : step env config w .flush = some w') :
    w.handles = .held ∧ push config w .flush = some w' := by
  simpa only [step, Option.ite_none_right_eq_some] using h

theorem step_drop (h : step env config w .drop = some w') :
    (w.handles = .held ∧ w.client.spilling = [] ∧ ∀ call ∈ w.storing, call.caller = .sender) ∧
      w' = { w with handles := .dropping } := by
  simp only [step, Option.ite_none_right_eq_some, Option.some.injEq] at h
  obtain ⟨⟨hheld, hempty, hcalls⟩, rfl⟩ := h
  refine ⟨⟨hheld, List.isEmpty_iff.mp hempty, fun call hcall => ?_⟩, rfl⟩
  simpa [show w.storing = some call from hcall] using hcalls

theorem step_shutdown (h : step env config w .shutdown = some w') :
    w.handles = .dropping ∧
      ∃ pushed, push config w .shutdown = some pushed ∧
        w' = { pushed with handles := .joining } := by
  simp only [step, Option.ite_none_right_eq_some, Option.map_eq_some_iff] at h
  obtain ⟨hdropping, pushed, hpush, rfl⟩ := h
  exact ⟨hdropping, pushed, hpush, rfl⟩

theorem step_receive (h : step env config w .receive = some w') :
    ∃ client, w.client.receive = some client ∧ w' = { w with client } := by
  obtain ⟨client, hreceive, rfl⟩ := Option.map_eq_some_iff.mp h
  exact ⟨client, hreceive, rfl⟩

theorem step_timeout (h : step env config w .timeout = some w') :
    w.client.sender = .waiting ∧ w.client.queue = [] ∧ w' = w.setSender .draining := by
  simp only [step] at h
  split at h
  · next hsender hqueue => exact ⟨hsender, hqueue, (Option.some.inj h).symm⟩
  · cases h

/-- An event whose encoding fails is taken for one the server did not get. -/
theorem step_transmit (h : step env config w .transmit = some w') :
    ∃ item posted sender, w.client.sender.outgoing = some (item, posted) ∧
      (sender = posted ∨ posted.settle .retry = some sender) ∧ w' = w.setSender sender := by
  simp only [step, Option.bind_eq_some_iff, Prod.exists] at h
  obtain ⟨item, posted, hout, h⟩ := h
  split at h
  · exact ⟨item, posted, posted, hout, .inl rfl, (Option.some.inj h).symm⟩
  · obtain ⟨sender, hsettle, rfl⟩ := Option.map_eq_some_iff.mp h
    exact ⟨item, posted, sender, hout, .inr hsettle, rfl⟩

theorem step_lockCapture {index : Nat} (h : step env config w (.lockCapture index) = some w') :
    ∃ item, w.client.spilling[index]? = some item ∧
      lock env config { w with
        client := { w.client with spilling := w.client.spilling.eraseIdx index } } .capture item =
          some w' :=
  Option.bind_eq_some_iff.mp h

theorem step_lockSender (h : step env config w .lockSender = some w') :
    ∃ item, w.client.sender = .storing item ∧ lock env config w .sender item = some w' := by
  simp only [step] at h
  split at h
  · next item hsender => exact ⟨item, hsender, h⟩
  · cases h

theorem step_place {served : Bool} {timestamp : Nat} {uuid : String}
    (h : step env config w (.place served timestamp uuid) = some w') :
    ∃ caller item bytes, w.storing = some ⟨caller, item, .writing bytes⟩ ∧
      (served = true ∧ w' = { w with
          sequence := w.sequence + 1
          disk := Spool.rename ⟨fileName timestamp w.sequence uuid, bytes, item.origin⟩ w.disk
          storing := some ⟨caller, item, .bounding⟩ } ∨
        served = false ∧ w' = finish { w with sequence := w.sequence + 1 } caller item false) := by
  simp only [step] at h
  split at h
  · next caller item bytes hstoring =>
    refine ⟨caller, item, bytes, hstoring, ?_⟩
    cases served with
    | true => exact .inl ⟨rfl, (Option.some.inj h).symm⟩
    | false => exact .inr ⟨rfl, (Option.some.inj h).symm⟩
  · cases h

theorem step_list {served : Bool} (h : step env config w (.list served) = some w') :
    ∃ caller item, w.storing = some ⟨caller, item, .bounding⟩ ∧
      (served = true ∧ w' = { w with
          storing := some ⟨caller, item, .evicting (Spool.size w.disk) (Spool.paths w.disk)⟩ } ∨
        served = false ∧ w' = finish w caller item false) := by
  simp only [step] at h
  split at h
  · next caller item hstoring =>
    refine ⟨caller, item, hstoring, ?_⟩
    cases served with
    | true => exact .inl ⟨rfl, (Option.some.inj h).symm⟩
    | false => exact .inr ⟨rfl, (Option.some.inj h).symm⟩
  · cases h

theorem step_evict {served : Bool} (h : step env config w (.evict served) = some w') :
    ∃ caller item total files, w.storing = some ⟨caller, item, .evicting total files⟩ ∧
      w' = evict config w caller item served total files := by
  simp only [step] at h
  split at h
  · next caller item total files hstoring =>
    exact ⟨caller, item, total, files, hstoring, (Option.some.inj h).symm⟩
  · cases h

theorem step_pick {reads : Nat} (h : step env config w (.pick reads) = some w') :
    w.client.sender = .draining ∧ w.storing = none ∧ ∃ disk,
      (Spool.oldestLoop env ((Spool.paths w.disk).take reads) w.disk = (disk, none) ∧
          w' = { w with disk }.setSender .waiting) ∨
        ∃ file event,
          Spool.oldestLoop env ((Spool.paths w.disk).take reads) w.disk =
            (disk, some (file, event)) ∧
          w' = { w with disk }.setSender (.redelivering file.name ⟨file.origin, event⟩) := by
  simp only [step] at h
  split at h
  · next hsender hnone =>
    refine ⟨hsender, hnone, ?_⟩
    generalize Spool.oldestLoop env ((Spool.paths w.disk).take reads) w.disk = result at h
    obtain ⟨disk, _ | ⟨file, event⟩⟩ := result
    · exact ⟨disk, .inl ⟨rfl, (Option.some.inj h).symm⟩⟩
    · exact ⟨disk, .inr ⟨file, event, rfl, (Option.some.inj h).symm⟩⟩
  · cases h

theorem step_pause (h : step env config w .pause = some w') :
    w.client.sender = .draining ∧ w' = w.setSender .waiting := by
  simp only [step] at h
  split at h
  · next hsender => exact ⟨hsender, (Option.some.inj h).symm⟩
  · cases h

theorem step_remove {served : Bool} (h : step env config w (.remove served) = some w') :
    ∃ file, w.client.sender = .removing file ∧ w' = { w with
      disk := if served then Spool.remove file w.disk else w.disk }.setSender .draining := by
  simp only [step] at h
  split at h
  · next file hsender => exact ⟨file, hsender, (Option.some.inj h).symm⟩
  · cases h

end Zbierak.Blocking
