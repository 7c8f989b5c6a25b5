import Zbierak.Stopping

/-!
# The async client and its shutdown

The sender task, the queue and the spool are those of the blocking client. A
capture first reads the stop flag and queues its event later. `shutdown` sets the
flag, queues a request to stop, and waits for the task if it is the first to take
its handle.
-/
namespace Zbierak.AsyncClient

open Sdk Blocking

/-- A call of `capture_event` that has found the stop flag unset. -/
structure Draft where
  event : Event
  uuid : String
  timestamp : String
  breadcrumbs : List Breadcrumb

/-- Where a call of `shutdown` is. -/
inductive Phase where
  | sending | taking | joining | returned
  deriving DecidableEq, Repr

/-- `attempted` are the captures whose event the worker has handed to the HTTP
client, `spooled` those whose event `capture_event` wrote to the spool. -/
structure World where
  base : Blocking.World
  stop : Bool
  capturing : List Draft
  calls : List Phase
  handle : Bool
  attempted : List Nat
  spooled : List Nat

/-- A client that has just been built over the files an earlier one left. -/
def World.start (leftover : Spool.Directory) (sequence : Nat) : World where
  base := .start leftover sequence
  stop := false
  capturing := []
  calls := []
  handle := true
  attempted := []
  spooled := []

/-- Choices of the environment. `worker` is a step that the client shares with
the blocking one. -/
inductive Label where
  | capture (draft : Draft)
  | enqueue (index : Nat)
  | worker (label : Blocking.Label)
  | shutdown
  | send (index : Nat)
  | take (index : Nat)
  | join (index : Nat)

/-- Steps of the worker, of a running `Spool::store` and of `flush`. -/
def shared : Blocking.Label → Bool
  | .capture .. | .drop | .shutdown => false
  | .flush | .receive | .timeout | .transmit | .answer _ | .lockCapture _ | .lockSender | .place ..
  | .list _ | .evict _ | .pick _ | .pause | .remove _ => true

/-- The captures whose event a step hands to the HTTP client. -/
def posting (base : Blocking.World) : Blocking.Label → List Nat
  | .transmit => base.client.sender.items.map Item.origin
  | _ => []

/-- The captures whose event a step of `capture_event` writes to the spool. -/
def spooling (base : Blocking.World) : Blocking.Label → List Nat
  | .place true _ _ => match base.storing with
    | some ⟨.capture, item, .writing _⟩ => [item.origin]
    | _ => []
  | _ => []

/-- Move the call of that index from one phase to the next. -/
def World.advance (w : World) (index : Nat) (phase : Phase) : World :=
  { w with calls := w.calls.set index phase }

def step (env : Crates) (config : Config) (w : World) : Label → Option World
  | .capture draft =>
    -- a set flag is an error for the caller
    if w.stop then some w else some { w with capturing := w.capturing ++ [draft] }
  | .enqueue index =>
    (w.capturing[index]?).map fun draft => { w with
      base := Blocking.capture env config w.base draft.event draft.uuid draft.timestamp
        draft.breadcrumbs
      capturing := w.capturing.eraseIdx index }
  | .worker label =>
    if shared label then
      (Blocking.step env config w.base label).map fun base => { w with
        base
        attempted := posting w.base label ++ w.attempted
        spooled := spooling w.base label ++ w.spooled }
    else none
  | .shutdown => some { w with stop := true, calls := w.calls ++ [.sending] }
  | .send index =>
    if w.calls[index]? = some .sending then
      match w.base.client.sender with
      | .stopped => some (w.advance index .taking)
      | _ => (push config w.base .shutdown).map fun base => { w.advance index .taking with base }
    else none
  | .take index =>
    if w.calls[index]? = some .taking then
      if w.handle then some { w.advance index .joining with handle := false }
      else some (w.advance index .returned)
    else none
  | .join index =>
    match w.calls[index]?, w.base.client.sender with
    | some .joining, .stopped => some (w.advance index .returned)
    | _, _ => none

/-- No call of `capture_event` is under way. -/
def Quiet (w : World) : Prop :=
  w.capturing = [] ∧ w.base.client.spilling = [] ∧
    ∀ call, w.base.storing = some call → call.caller = .sender

/-- Once a `shutdown` and all captures have returned, every accepted event was
attempted or written to the spool. -/
def LosesNothing (w : World) : Prop :=
  .returned ∈ w.calls → Quiet w →
    ∀ item ∈ w.base.accepted, item.origin ∈ w.attempted ∨ item.origin ∈ w.spooled

def isShutdown : Command → Bool
  | .shutdown => true
  | .event _ | .flush => false

def isStopped : Sender → Bool
  | .stopped => true
  | .waiting | .delivering _ | .posted _ | .storing _ | .draining | .redelivering .. | .reposted ..
  | .removing _ => false

/-- The event the worker has taken from the queue and not sent yet. -/
def taken : Sender → List Item
  | .delivering item => [item]
  | .waiting | .posted _ | .storing _ | .draining | .redelivering .. | .reposted .. | .removing _
  | .stopped => []

/-- Events that the worker has not sent yet. -/
def unsent (base : Blocking.World) : List Item :=
  base.client.queue.flatMap Command.items ++ taken base.client.sender

/-- `try_send` accepts the event of the draft. -/
def Queues (env : Crates) (config : Config) (base : Blocking.World) (draft : Draft) : Prop :=
  (config.context.prepare env draft.uuid draft.timestamp draft.breadcrumbs draft.event).isOk ∧
    ¬ isStopped base.client.sender ∧ base.client.queue.length < config.queueCapacity

instance (env : Crates) (config : Config) (base : Blocking.World) (draft : Draft) :
    Decidable (Queues env config base draft) := inferInstanceAs (Decidable (_ ∧ _ ∧ _))

/-- No capture queues its event behind a request to stop, and no `shutdown` that
finds the handle taken returns while the worker still has an event to send. -/
def InOrder (env : Crates) (config : Config) (w : World) : Label → Prop
  | .enqueue index => ∀ draft ∈ w.capturing[index]?, Queues env config w.base draft →
      ¬ w.base.client.queue.any isShutdown
  | .take index => w.calls[index]? = some .taking → w.handle = false → (unsent w.base).isEmpty
  | .capture _ | .worker _ | .shutdown | .send _ | .join _ => True

variable {env : Crates} {config : Config} {b b' : Blocking.World} {w w' : World}

theorem shutdown_mem_iff {queue : List Command} :
    Command.shutdown ∈ queue ↔ queue.any isShutdown = true := by
  simp only [List.any_eq_true]
  constructor
  · exact fun h => ⟨_, h, rfl⟩
  · rintro ⟨command, hmem, h⟩
    cases command <;> cases h
    exact hmem

theorem capture_cases (env : Crates) (config : Config) (b : Blocking.World) (draft : Draft) :
    capture env config b draft.event draft.uuid draft.timestamp draft.breadcrumbs = b ∨
    (∃ item, Queues env config b draft ∧
      capture env config b draft.event draft.uuid draft.timestamp draft.breadcrumbs = { b with
        client := { b.client with queue := b.client.queue ++ [.event item] }
        captured := b.captured + 1
        accepted := item :: b.accepted }) ∨
    ∃ item, capture env config b draft.event draft.uuid draft.timestamp draft.breadcrumbs = { b with
      client := { b.client with spilling := b.client.spilling ++ [item] }
      captured := b.captured + 1 } := by
  unfold capture
  cases hprepare : config.context.prepare env draft.uuid draft.timestamp draft.breadcrumbs draft.event with
  | error e => exact .inl rfl
  | ok prepared =>
    dsimp only
    cases hclient : b.client.enqueue config.queueCapacity ⟨b.captured, prepared⟩ with
    | error e => exact .inl rfl
    | ok client =>
      unfold Process.enqueue at hclient
      split at hclient
      · cases hclient
      · next hrunning =>
        split at hclient
        · next hroom =>
          cases hclient
          refine .inr (.inl ⟨⟨b.captured, prepared⟩,
            ⟨by simp [hprepare, Except.isOk, Except.toBool], ?_, hroom⟩, ?_⟩)
          · cases hs : b.client.sender <;> simp_all [isStopped]
          · simp only [hroom, if_true]
        · next hfull =>
          cases hclient
          exact .inr (.inr ⟨⟨b.captured, prepared⟩, by simp only [hfull, if_false]⟩)

/-- The event of this phase is on disk, or was. -/
def written : Blocking.Phase → Bool
  | .writing _ => false
  | .bounding | .evicting .. => true

/-- A worker that called `Spool::store` waits for it. -/
def Waits (b : Blocking.World) : Prop :=
  ∀ item phase, b.storing = some ⟨.sender, item, phase⟩ → b.client.sender = .storing item

/-- What every step of the worker and of `Spool::store` leaves alone, apart from
taking a command, queueing one and sending an event. -/
structure Frame (b b' : Blocking.World) (spooled : List Nat) : Prop where
  queue : b'.client.queue = b.client.queue
  taken : taken b'.client.sender = taken b.client.sender
  stopped : b'.client.sender = .stopped ↔ b.client.sender = .stopped
  waits : Waits b'
  accepted : ∀ item ∈ b'.accepted, item ∈ b.accepted ∨
    ∃ phase, b.storing = some ⟨.capture, item, phase⟩ ∧ written phase
  storing : ∀ item phase, b'.storing = some ⟨.capture, item, phase⟩ → written phase →
    (∃ phase', b.storing = some ⟨.capture, item, phase'⟩ ∧ written phase') ∨ item.origin ∈ spooled

theorem frame_setSender (hw : Waits b) {sender : Sender} (htaken : taken b.client.sender = [])
    (hbusy : ∀ item, b.client.sender ≠ .storing item) (hold : b.client.sender ≠ .stopped)
    (hnew : taken sender = [] ∧ sender ≠ .stopped) (disk : Spool.Directory)
    (answers : List (Nat × Nat)) (spooled : List Nat) :
    Frame b { b.setSender sender with disk, answers } spooled where
  queue := rfl
  taken := hnew.1.trans htaken.symm
  stopped := ⟨fun h => absurd h hnew.2, fun h => absurd h hold⟩
  waits item phase h := absurd (hw item phase h) (hbusy item)
  accepted _ h := .inl h
  storing _ phase h hwritten := .inl ⟨phase, h, hwritten⟩

theorem frame_finish {caller : Caller} {item : Item} {ok : Bool}
    (hwaits : caller = .sender → b.client.sender = .storing item)
    (hwritten : ok = true → ∃ phase, b.storing = some ⟨caller, item, phase⟩ ∧ written phase)
    (spooled : List Nat) : Frame b (finish b caller item ok) spooled := by
  cases caller with
  | capture =>
    refine ⟨rfl, rfl, .rfl, fun _ _ h => (nomatch h), fun i hi => ?_, fun _ _ h => (nomatch h)⟩
    have hi : i ∈ if ok then item :: b.accepted else b.accepted := hi
    split at hi
    · next hok =>
      rcases List.mem_cons.mp hi with rfl | hi
      · exact .inr (hwritten hok)
      · exact .inl hi
    · exact .inl hi
  | sender =>
    have hs := hwaits rfl
    refine ⟨rfl, by rw [hs]; rfl, ?_, fun _ _ h => (nomatch h), fun i hi => .inl hi,
      fun _ _ h => (nomatch h)⟩
    rw [hs]
    exact ⟨fun h => (nomatch h), fun h => (nomatch h)⟩

/-- A running `Spool::store` goes on. -/
theorem frame_call (hw : Waits b) {caller : Caller} {item : Item} {phase phase' : Blocking.Phase}
    (hcall : b.storing = some ⟨caller, item, phase⟩) {spooled : List Nat}
    (hwritten : caller = .capture → written phase' → written phase ∨ item.origin ∈ spooled)
    (disk : Spool.Directory) (sequence : Nat) (evicted : List Nat) :
    Frame b { b with disk, sequence, evicted, storing := some ⟨caller, item, phase'⟩ } spooled where
  queue := rfl
  taken := rfl
  stopped := .rfl
  waits i p h := by
    cases h
    exact hw item phase hcall
  accepted _ h := .inl h
  storing i p h hp := by
    cases h
    exact (hwritten rfl hp).imp (fun h => ⟨phase, hcall, h⟩) id

theorem frame_lock {caller : Caller} {item : Item}
    (hwaits : caller = .sender → b.client.sender = .storing item)
    (hl : lock env config b caller item = some b') (spooled : List Nat) : Frame b b' spooled := by
  obtain ⟨-, ⟨bytes, -, rfl⟩ | ⟨-, rfl⟩⟩ := lock_some hl
  · refine ⟨rfl, rfl, .rfl, fun i p h => ?_, fun _ h => .inl h, fun i p h hp => ?_⟩
    · cases h
      exact hwaits rfl
    · cases h
      cases hp
  · exact frame_finish hwaits (by simp) spooled

theorem Frame.of_spilling {spilling : List Item} {spooled : List Nat}
    (h : Frame { b with client := { b.client with spilling } } b' spooled) : Frame b b' spooled :=
  ⟨h.queue, h.taken, h.stopped, h.waits, h.accepted, h.storing⟩

theorem Frame.of_sequence {sequence : Nat} {spooled : List Nat}
    (h : Frame { b with sequence } b' spooled) : Frame b b' spooled :=
  ⟨h.queue, h.taken, h.stopped, h.waits, h.accepted, h.storing⟩

theorem frame_evict (hw : Waits b) {caller : Caller} {item : Item} {served : Bool} {total : Nat}
    {files : List Spool.File} (hstoring : b.storing = some ⟨caller, item, .evicting total files⟩)
    (spooled : List Nat) : Frame b (evict config b caller item served total files) spooled := by
  have hwaits : caller = .sender → b.client.sender = .storing item := by
    rintro rfl
    exact hw item _ hstoring
  have hfinish : ∀ ok, Frame b (finish b caller item ok) spooled := fun ok =>
    frame_finish hwaits (fun _ => ⟨_, hstoring, rfl⟩) spooled
  obtain ⟨-, hevict⟩ | ⟨f, rest, -, -, ⟨-, hevict⟩ | ⟨-, hevict⟩⟩ :=
    evict_cases config b caller item served total files
  · rw [hevict]
    exact hfinish true
  · rw [hevict]
    exact frame_call hw hstoring (fun _ _ => .inl rfl) _ _ _
  · rw [hevict]
    exact hfinish false

theorem frame_answer (hw : Waits b) {response : Except String Nat}
    (hstep : answer b response = some b') (spooled : List Nat) : Frame b b' spooled := by
  obtain ⟨sender, hsettle, rfl⟩ := Option.map_eq_some_iff.mp hstep
  cases hs : b.client.sender <;> rw [hs] at hsettle
  case posted | reposted =>
    refine frame_setSender hw (by rw [hs]; rfl) (by simp [hs]) (by simp [hs]) ?_ _ _ _
    cases hout : outcome response <;> rw [hout] at hsettle <;> cases hsettle <;>
      exact ⟨rfl, nofun⟩
  all_goals cases hsettle

/-- Steps that neither touch the queue nor send an event. -/
def inner : Blocking.Label → Bool
  | .capture .. | .drop | .shutdown | .flush | .receive | .transmit => false
  | .timeout | .answer _ | .lockCapture _ | .lockSender | .place .. | .list _ | .evict _ | .pick _
  | .pause | .remove _ => true

theorem frame_step {label : Blocking.Label} (hinner : inner label) (hw : Waits b)
    (hstep : Blocking.step env config b label = some b') : Frame b b' (spooling b label) := by
  cases label with
  | capture | drop | shutdown | flush | receive | transmit => cases hinner
  | timeout =>
    obtain ⟨hs, -, rfl⟩ := step_timeout hstep
    refine frame_setSender hw (by rw [hs]; rfl) (by simp [hs]) (by simp [hs]) ?_ _ _ _
    exact ⟨rfl, by simp⟩
  | answer response => exact frame_answer hw hstep _
  | lockCapture index =>
    obtain ⟨item, -, hlock⟩ := step_lockCapture hstep
    have hframe := frame_lock (fun hcaller => by cases hcaller) hlock (spooling b (.lockCapture index))
    exact hframe.of_spilling
  | lockSender =>
    obtain ⟨item, hs, hlock⟩ := step_lockSender hstep
    exact frame_lock (fun _ => hs) hlock _
  | place served timestamp uuid =>
    obtain ⟨caller, item, bytes, hstoring, ⟨rfl, rfl⟩ | ⟨rfl, rfl⟩⟩ := step_place hstep
    · refine frame_call hw hstoring (fun hcaller _ => .inr ?_) _ _ _
      subst hcaller
      simp [spooling, hstoring]
    · refine (frame_finish (fun hcaller => ?_) (by simp) _).of_sequence
      subst hcaller
      exact hw item _ hstoring
  | list served =>
    obtain ⟨caller, item, hstoring, ⟨-, rfl⟩ | ⟨-, rfl⟩⟩ := step_list hstep
    · exact frame_call hw hstoring (fun _ _ => .inl rfl) _ _ _
    · refine frame_finish (fun hcaller => ?_) (by simp) _
      subst hcaller
      exact hw item _ hstoring
  | evict served =>
    obtain ⟨caller, item, total, files, hstoring, rfl⟩ := step_evict hstep
    exact frame_evict hw hstoring _
  | pick reads =>
    obtain ⟨hs, -, disk, hpicked⟩ := step_pick hstep
    have hframe : ∀ sender, taken sender = [] ∧ sender ≠ .stopped →
        Frame b ({ b with disk }.setSender sender) (spooling b (.pick reads)) := fun sender hnew =>
      frame_setSender hw (by rw [hs]; rfl) (by simp [hs]) (by simp [hs]) hnew _ _ _
    obtain ⟨-, rfl⟩ | ⟨file, event, -, rfl⟩ := hpicked
    · exact hframe _ ⟨rfl, by simp⟩
    · exact hframe _ ⟨rfl, by simp⟩
  | pause =>
    obtain ⟨hs, rfl⟩ := step_pause hstep
    refine frame_setSender hw (by rw [hs]; rfl) (by simp [hs]) (by simp [hs]) ?_ _ _ _
    exact ⟨rfl, by simp⟩
  | remove served =>
    obtain ⟨file, hs, rfl⟩ := step_remove hstep
    refine frame_setSender hw (by rw [hs]; rfl) (by simp [hs]) (by simp [hs]) ?_ _ _ _
    exact ⟨rfl, by simp⟩

/-- Every accepted event was sent, written to the spool, or is yet to be sent;
and nothing but requests stands behind a request to stop. -/
structure Inv (w : World) : Prop where
  waits : Waits w.base
  accounted : ∀ item ∈ w.base.accepted,
    item ∈ unsent w.base ∨ item.origin ∈ w.attempted ∨ item.origin ∈ w.spooled
  stored : ∀ item phase, w.base.storing = some ⟨.capture, item, phase⟩ → written phase →
    item.origin ∈ w.spooled
  behind : ∀ before after, w.base.client.queue = before ++ .shutdown :: after →
    after.flatMap Command.items = []
  stopped : w.base.client.sender = .stopped → w.base.client.queue.flatMap Command.items = []
  asked : (∃ phase ∈ w.calls, phase ≠ .sending) →
    w.base.client.sender = .stopped ∨ Command.shutdown ∈ w.base.client.queue
  returned : .returned ∈ w.calls → unsent w.base = []

theorem inv_inner (h : Inv w) {label : Blocking.Label} (hinner : inner label)
    (hstep : Blocking.step env config w.base label = some b) :
    Inv { w with base := b, spooled := spooling w.base label ++ w.spooled } := by
  have hf := frame_step hinner h.waits hstep
  have hunsent : unsent b = unsent w.base := by rw [unsent, unsent, hf.queue, hf.taken]
  have hstored : ∀ item phase, w.base.storing = some ⟨.capture, item, phase⟩ → written phase →
      item.origin ∈ spooling w.base label ++ w.spooled := fun item phase hs hp =>
    List.mem_append_right _ (h.stored item phase hs hp)
  refine ⟨hf.waits, fun item hitem => ?_, fun item phase hs hp => ?_, ?_, ?_, ?_, ?_⟩
  · rcases hf.accepted item hitem with hitem | ⟨phase, hs, hp⟩
    · rcases h.accounted item hitem with hu | ha | hs
      · exact .inl (hunsent ▸ hu)
      · exact .inr (.inl ha)
      · exact .inr (.inr (List.mem_append_right _ hs))
    · exact .inr (.inr (hstored item phase hs hp))
  · rcases hf.storing item phase hs hp with ⟨phase', hs, hp⟩ | hs
    · exact hstored item phase' hs hp
    · exact List.mem_append_left _ hs
  · simpa only [hf.queue] using h.behind
  · simpa only [hf.queue, hf.stopped] using h.stopped
  · simpa only [hf.queue, hf.stopped] using h.asked
  · simpa only [hunsent] using h.returned

theorem inv_transmit (h : Inv w) (hstep : Blocking.step env config w.base .transmit = some b) :
    Inv { w with base := b, attempted := posting w.base .transmit ++ w.attempted } := by
  obtain ⟨item, posted, sender, hout, hnext, rfl⟩ := step_transmit hstep
  obtain ⟨hrunning, htaken⟩ : sender ≠ .stopped ∧ taken sender = [] := by
    cases hs : w.base.client.sender <;> rw [hs] at hout <;> cases hout
    all_goals
      rcases hnext with rfl | hsettle
      · exact ⟨by simp, rfl⟩
      · cases hsettle
        exact ⟨by simp, rfl⟩
  have hbusy : ∀ item, w.base.client.sender ≠ .storing item := by
    intro item hs
    rw [hs] at hout
    cases hout
  have hold : w.base.client.sender ≠ .stopped := by
    intro hs
    rw [hs] at hout
    cases hout
  have hitems : ∀ i ∈ taken w.base.client.sender, i.origin ∈ posting w.base .transmit := by
    intro i hi
    refine List.mem_map.mpr ⟨i, ?_, rfl⟩
    cases hs : w.base.client.sender <;> rw [hs] at hi <;> first | exact hi | cases hi
  have hunsent : unsent w.base = [] → unsent (w.base.setSender sender) = [] := by
    intro hnone
    rw [unsent, show taken (w.base.setSender sender).client.sender = [] from htaken,
      List.append_nil]
    exact (List.append_eq_nil_iff.mp hnone).1
  refine ⟨fun item phase hs => absurd (h.waits item phase hs) (hbusy item), fun i hi => ?_, h.stored,
    h.behind, fun hs => absurd hs hrunning, fun hcall => ?_, fun hret => hunsent (h.returned hret)⟩
  · rcases h.accounted i hi with hu | ha | hs
    · rcases List.mem_append.mp hu with hq | ht
      · exact .inl (List.mem_append_left _ hq)
      · exact .inr (.inl (List.mem_append_left _ (hitems i ht)))
    · exact .inr (.inl (List.mem_append_right _ ha))
    · exact .inr (.inr hs)
  · exact .inr ((h.asked hcall).resolve_left hold)

/-- Queueing something that is not an event. -/
theorem inv_push (h : Inv w) {command : Command} (hitems : command.items = [])
    (hp : push config w.base command = some b) : Inv { w with base := b } := by
  simp only [push, Option.ite_none_right_eq_some, Option.some.injEq] at hp
  obtain ⟨-, rfl⟩ := hp
  have hqueue : (w.base.client.queue ++ [command]).flatMap Command.items =
      w.base.client.queue.flatMap Command.items := by simp [hitems]
  refine ⟨h.waits, fun item hitem => ?_, h.stored, fun before after happend => ?_, fun hs => ?_,
    fun hcall => ?_, fun hret => ?_⟩
  · simpa only [unsent, hqueue] using h.accounted item hitem
  · have happend : w.base.client.queue ++ [command] = before ++ .shutdown :: after := happend
    rcases List.eq_nil_or_concat after with rfl | ⟨rest, last, rfl⟩
    · rfl
    · rw [List.concat_eq_append, ← List.cons_append, ← List.append_assoc] at happend
      obtain ⟨hinit, hlast⟩ := List.append_inj' happend rfl
      obtain rfl : command = last := by simpa using hlast
      rw [List.concat_eq_append, List.flatMap_append, h.behind before rest hinit]
      simpa using hitems
  · exact hqueue.trans (h.stopped hs)
  · exact (h.asked hcall).imp id fun hmem => List.mem_append_left _ hmem
  · have hnone := h.returned hret
    rw [unsent] at hnone ⊢
    rw [← hnone]
    exact congrArg (· ++ _) hqueue

theorem inv_receive (h : Inv w) {client : Process} (hr : w.base.client.receive = some client) :
    Inv { w with base := { w.base with client } } := by
  have hcases : w.base.client.sender = .waiting ∧ ∃ command,
      w.base.client.queue = command :: client.queue ∧ taken client.sender = command.items ∧
        (client.sender = .stopped ↔ command = .shutdown) := by
    unfold Process.receive at hr
    split at hr <;> cases hr <;> exact ⟨by assumption, _, by assumption, rfl, by simp⟩
  obtain ⟨hwaiting, command, hqueue, htaken, hstopped⟩ := hcases
  have hunsent : unsent { w.base with client } = client.queue.flatMap Command.items ++ command.items :=
    congrArg (_ ++ ·) htaken
  have hold : unsent w.base = command.items ++ client.queue.flatMap Command.items := by
    rw [unsent, hqueue, hwaiting, taken, List.append_nil, List.flatMap_cons]
  refine ⟨fun item phase hs => absurd (h.waits item phase hs) (by simp [hwaiting]),
    fun item hitem => ?_, h.stored, fun before after happend => ?_, fun hs => ?_, fun hcall => ?_,
    fun hret => ?_⟩
  · rcases h.accounted item hitem with hu | hrest
    · refine .inl ?_
      rw [hold] at hu
      rw [hunsent]
      exact List.mem_append.mpr (List.mem_append.mp hu).symm
    · exact .inr hrest
  · exact h.behind (command :: before) after (by rw [hqueue, happend, List.cons_append])
  · obtain rfl := hstopped.mp hs
    exact h.behind [] client.queue hqueue
  · rcases h.asked hcall with hs | hmem
    · rw [hwaiting] at hs
      cases hs
    · rw [hqueue] at hmem
      rcases List.mem_cons.mp hmem with rfl | hmem
      · exact .inl (hstopped.mpr rfl)
      · exact .inr hmem
  · have hnone := h.returned hret
    rw [hold, List.append_eq_nil_iff] at hnone
    rw [hunsent, hnone.1, hnone.2, List.append_nil]

theorem inv_worker (h : Inv w) {label : Blocking.Label} (hshared : shared label)
    (hstep : Blocking.step env config w.base label = some b) :
    Inv { w with
      base := b
      attempted := posting w.base label ++ w.attempted
      spooled := spooling w.base label ++ w.spooled } := by
  cases label with
  | capture | drop | shutdown => cases hshared
  | flush => exact inv_push h rfl (step_flush hstep).2
  | receive =>
    obtain ⟨client, hr, rfl⟩ := step_receive hstep
    exact inv_receive h hr
  | transmit => exact inv_transmit h hstep
  | timeout | answer | lockCapture | lockSender | place | list | evict | pick | pause | remove =>
    exact inv_inner h rfl hstep

theorem inv_enqueue (h : Inv w) {index : Nat} {draft : Draft} (hdraft : draft ∈ w.capturing[index]?)
    (horder : InOrder env config w (.enqueue index)) (capturing : List Draft) :
    Inv { w with
      base := capture env config w.base draft.event draft.uuid draft.timestamp draft.breadcrumbs
      capturing } := by
  rcases capture_cases env config w.base draft with hsame | ⟨item, hqueues, hqueued⟩ | ⟨item, hspilled⟩
  · rw [hsame]
    exact ⟨h.waits, h.accounted, h.stored, h.behind, h.stopped, h.asked, h.returned⟩
  · rw [hqueued]
    have hnone := horder draft hdraft hqueues
    rw [← shutdown_mem_iff] at hnone
    have hrunning : w.base.client.sender ≠ .stopped := by
      intro hs
      exact hqueues.2.1 (by rw [hs]; rfl)
    have hnocall : ¬ ∃ phase ∈ w.calls, phase ≠ .sending := fun hcall =>
      (h.asked hcall).elim hrunning hnone
    refine ⟨h.waits, fun i hi => ?_, h.stored, fun before after happend => ?_,
      fun hs => absurd hs hrunning, fun hcall => absurd hcall hnocall,
      fun hret => absurd ⟨_, hret, nofun⟩ hnocall⟩
    · rcases List.mem_cons.mp hi with rfl | hi
      · refine .inl (List.mem_append_left _ ?_)
        simp [Command.items]
      · refine (h.accounted i hi).imp (fun hu => ?_) id
        rcases List.mem_append.mp hu with hu | hu
        · refine List.mem_append_left _ ?_
          rw [List.flatMap_append]
          exact List.mem_append_left _ hu
        · exact List.mem_append_right _ hu
    · have hmem : Command.shutdown ∈ w.base.client.queue ++ [.event item] := by
        rw [show w.base.client.queue ++ [.event item] = before ++ .shutdown :: after from happend]
        simp
      rcases List.mem_append.mp hmem with hmem | hmem
      · exact absurd hmem hnone
      · cases List.mem_singleton.mp hmem
  · rw [hspilled]
    exact ⟨h.waits, h.accounted, h.stored, h.behind, h.stopped, h.asked, h.returned⟩

/-- A call of `shutdown` that moves on without having returned. -/
theorem inv_advance (h : Inv w) {index : Nat} {phase : Phase} (hphase : phase ≠ .returned)
    (hasked : w.base.client.sender = .stopped ∨ Command.shutdown ∈ w.base.client.queue) :
    Inv (w.advance index phase) :=
  ⟨h.waits, h.accounted, h.stored, h.behind, h.stopped, fun _ => hasked,
    fun hret => h.returned ((List.mem_or_eq_of_mem_set hret).resolve_right hphase.symm)⟩

theorem inv_return (h : Inv w) {index : Nat} (hcall : ∃ phase ∈ w.calls, phase ≠ .sending)
    (hunsent : unsent w.base = []) : Inv (w.advance index .returned) :=
  ⟨h.waits, h.accounted, h.stored, h.behind, h.stopped, fun _ => h.asked hcall, fun _ => hunsent⟩

theorem inv_send (h : Inv w) {index : Nat} (hstep : step env config w (.send index) = some w') :
    Inv w' := by
  simp only [step, Option.ite_none_right_eq_some] at hstep
  obtain ⟨-, hstep⟩ := hstep
  split at hstep
  · next hs =>
    obtain rfl := Option.some.inj hstep
    exact inv_advance h nofun (.inl hs)
  · obtain ⟨base, hp, rfl⟩ := Option.map_eq_some_iff.mp hstep
    have hpushed : Command.shutdown ∈ base.client.queue := by
      simp only [push, Option.ite_none_right_eq_some, Option.some.injEq] at hp
      obtain ⟨-, rfl⟩ := hp
      simp
    exact inv_advance (inv_push h rfl hp) nofun (.inr hpushed)

theorem inv_take (h : Inv w) {index : Nat} (horder : InOrder env config w (.take index))
    (hstep : step env config w (.take index) = some w') : Inv w' := by
  simp only [step, Option.ite_none_right_eq_some] at hstep
  obtain ⟨htaking, hstep⟩ := hstep
  have hcall : ∃ phase ∈ w.calls, phase ≠ .sending := ⟨_, List.mem_of_getElem? htaking, nofun⟩
  split at hstep
  · obtain rfl := Option.some.inj hstep
    have hnext : Inv (w.advance index .joining) := inv_advance h nofun (h.asked hcall)
    exact ⟨hnext.waits, hnext.accounted, hnext.stored, hnext.behind, hnext.stopped, hnext.asked,
      hnext.returned⟩
  · next hhandle =>
    obtain rfl := Option.some.inj hstep
    exact inv_return h hcall (List.isEmpty_iff.mp (horder htaking (by simpa using hhandle)))

theorem inv_join (h : Inv w) {index : Nat} (hstep : step env config w (.join index) = some w') :
    Inv w' := by
  simp only [step] at hstep
  split at hstep
  · next hjoining hs =>
    obtain rfl := Option.some.inj hstep
    refine inv_return h ⟨_, List.mem_of_getElem? hjoining, nofun⟩ ?_
    rw [unsent, h.stopped hs, hs]
    rfl
  · cases hstep

theorem inv_step {label : Label} (h : Inv w) (horder : InOrder env config w label)
    (hstep : step env config w label = some w') : Inv w' := by
  cases label with
  | capture draft =>
    simp only [step] at hstep
    split at hstep
    · obtain rfl := Option.some.inj hstep
      exact h
    · obtain rfl := Option.some.inj hstep
      exact ⟨h.waits, h.accounted, h.stored, h.behind, h.stopped, h.asked, h.returned⟩
  | enqueue index =>
    obtain ⟨draft, hdraft, rfl⟩ := Option.map_eq_some_iff.mp hstep
    exact inv_enqueue h hdraft horder _
  | worker label =>
    simp only [step, Option.ite_none_right_eq_some, Option.map_eq_some_iff] at hstep
    obtain ⟨hshared, base, hbase, rfl⟩ := hstep
    exact inv_worker h hshared hbase
  | shutdown =>
    obtain rfl := Option.some.inj hstep
    refine ⟨h.waits, h.accounted, h.stored, h.behind, h.stopped, ?_, fun hret => ?_⟩
    · rintro ⟨phase, hphase, hne⟩
      refine h.asked ⟨phase, (List.mem_append.mp hphase).resolve_right fun hmem => ?_, hne⟩
      exact hne (List.mem_singleton.mp hmem)
    · exact h.returned ((List.mem_append.mp hret).resolve_right (by simp))
  | send index => exact inv_send h hstep
  | take index => exact inv_take h horder hstep
  | join index => exact inv_join h hstep

theorem inv_start (leftover : Spool.Directory) (sequence : Nat) :
    Inv (World.start leftover sequence) where
  waits item phase h := by cases h
  accounted item h := by cases h
  stored item phase h := by cases h
  behind before after h := by simp [World.start, Blocking.World.start, Process.start] at h
  stopped h := by cases h
  asked h := by simp [World.start] at h
  returned h := by cases h

/-- As long as no event is queued behind a request to stop and no `shutdown`
returns before the worker has sent what was queued, nothing accepted is lost. -/
theorem shutdown_loses_nothing {leftover : Spool.Directory} {sequence : Nat} {labels : List Label}
    (hrun : Runs.run (step env config) labels (.start leftover sequence) = some w)
    (horder : Runs.Along (step env config) (InOrder env config) labels (.start leftover sequence)) :
    LosesNothing w := by
  have hinv : Inv w := Runs.along_invariant (fun _ _ _ h hc hs => inv_step h hc hs) hrun horder
    (inv_start leftover sequence)
  intro hreturned _ item hitem
  refine (hinv.accounted item hitem).resolve_left ?_
  rw [hinv.returned hreturned]
  exact List.not_mem_nil

instance (env : Crates) (config : Config) (w : World) : ∀ label, Decidable (InOrder env config w label)
  | .enqueue index => inferInstanceAs (Decidable (∀ draft ∈ w.capturing[index]?,
      Queues env config w.base draft → ¬ w.base.client.queue.any isShutdown))
  | .take index => inferInstanceAs (Decidable (w.calls[index]? = some .taking → w.handle = false →
      (unsent w.base).isEmpty))
  | .capture _ | .worker _ | .shutdown | .send _ | .join _ => isTrue trivial

def Sample.roomy : Config := ⟨none, "spool", 1000, 8, ⟨none, none, none, none⟩⟩

def Sample.draft (message : String) : Draft := ⟨Sample.event message, "e1", "2026-01-02T03:04:06Z", []⟩

/-- One event is queued in time, the server refuses it for now, and a capture
that comes after the call of `shutdown` is told so. -/
def Sample.inTime : List Label :=
  [.capture (Sample.draft "m"), .enqueue 0, .shutdown, .capture (Sample.draft "n"), .send 0,
    .worker .receive, .take 0, .worker .transmit, .worker (.answer (.ok 503)), .worker .lockSender,
    .worker (.place true 1767323046000 "8a01"), .worker (.list true), .worker (.evict true),
    .worker .receive, .join 0]

set_option maxRecDepth 20000 in
theorem shutdown_loses_nothing_inTime :
    ∃ w, Runs.run (step Sample.crates Sample.roomy) Sample.inTime (.start [] 0) = some w ∧
      LosesNothing w := by
  have hsome : (Runs.run (step Sample.crates Sample.roomy) Sample.inTime
      (.start [] 0)).isSome = true := by decide +kernel
  obtain ⟨w, hw⟩ := Option.isSome_iff_exists.mp hsome
  exact ⟨w, hw, shutdown_loses_nothing hw (by decide +kernel)⟩

/-- A capture finds the flag unset, `shutdown` queues its request, and the event
is queued behind it. -/
def Sample.tooLate : List Label :=
  [.capture (Sample.draft "m"), .shutdown, .send 0, .enqueue 0, .worker .receive, .take 0, .join 0]

/-- The calls of `shutdown`, whether no capture is under way, and the captures that
were accepted, attempted and spooled. -/
def Sample.observe (w : World) : List Phase × Bool × List Nat × List Nat × List Nat :=
  (w.calls, w.capturing.isEmpty && w.base.client.spilling.isEmpty && w.base.storing.isNone,
    w.base.accepted.map Item.origin, w.attempted, w.spooled)

set_option maxRecDepth 20000 in
/-- The late event is accepted and dropped with the queue. -/
theorem lateEvent_is_lost :
    ∃ w, Runs.run (step Sample.crates Sample.roomy) Sample.tooLate (.start [] 0) = some w ∧
      ¬ LosesNothing w := by
  have hrun : (Runs.run (step Sample.crates Sample.roomy) Sample.tooLate (.start [] 0)).map
      Sample.observe = some ([.returned], true, [0], [], []) := by decide +kernel
  obtain ⟨w, hw, hseen⟩ := Option.map_eq_some_iff.mp hrun
  simp only [Sample.observe, Prod.mk.injEq, Bool.and_eq_true, List.isEmpty_iff,
    Option.isNone_iff_eq_none, List.map_eq_singleton_iff] at hseen
  obtain ⟨hcalls, ⟨⟨hcapturing, hspilling⟩, hstoring⟩, ⟨item, haccepted, -⟩, hattempted, hspooled⟩ :=
    hseen
  refine ⟨w, hw, fun hloses => ?_⟩
  have hquiet : Quiet w := ⟨hcapturing, hspilling, by simp [hstoring]⟩
  have := hloses (by simp [hcalls]) hquiet item (by simp [haccepted])
  simp [hattempted, hspooled] at this

end Zbierak.AsyncClient
