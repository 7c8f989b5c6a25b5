import Zbierak.FailedSpill

/-!
# Flush is a barrier

The queue hands commands over in order, and the sender serves a flush only when
it has nothing of its own in hand. What was accepted before a flush was queued is
therefore on disk or done with when the flush is served, and a report of no
remaining file says that none of it is left. Both clients are treated alike: a
client is a system whose steps act on the queue, the sender and the spool.
-/
namespace Zbierak.Barrier

open Sdk Blocking Conservation SpillLedger
open AsyncClient (Draft Waits frame_step)

variable {env : Crates} {config : Config} {leftover : Spool.Directory} {b b' : Blocking.World}

/-- What a step of a client does to the queue, the sender and the spool. -/
inductive Act where
  | step (label : Blocking.Label)
  | capture (draft : Draft)
  | stop
  | idle

def Act.run (env : Crates) (config : Config) (b : Blocking.World) : Act → Option Blocking.World
  | .step label => Blocking.step env config b label
  | .capture draft =>
    some (Blocking.capture env config b draft.event draft.uuid draft.timestamp draft.breadcrumbs)
  | .stop => push config b .shutdown
  | .idle => some b

/-- A client whose steps are such acts. -/
structure Client (env : Crates) (config : Config) where
  State : Type
  Label : Type
  step : State → Label → Option State
  base : State → Blocking.World
  act : State → Label → Act
  sound : ∀ {s a t}, step s a = some t → (act s a).run env config (base s) = some (base t)

def blocking (env : Crates) (config : Config) : Client env config where
  State := Blocking.World
  Label := Blocking.Label
  step := Blocking.step env config
  base := id
  act _ label := .step label
  sound h := h

def asyncAct (w : AsyncClient.World) : AsyncClient.Label → Act
  | .enqueue index => (w.capturing[index]?).elim .idle .capture
  | .worker label => .step label
  | .send _ => match w.base.client.sender with
    | .stopped => .idle
    | _ => .stop
  | .capture _ | .shutdown | .take _ | .join _ => .idle

theorem asyncAct_sound {w w' : AsyncClient.World} {label : AsyncClient.Label}
    (h : AsyncClient.step env config w label = some w') :
    (asyncAct w label).run env config w.base = some w'.base := by
  cases label with
  | capture draft =>
    simp only [AsyncClient.step] at h
    split at h <;> cases h <;> rfl
  | enqueue index =>
    obtain ⟨draft, hdraft, rfl⟩ := Option.map_eq_some_iff.mp h
    simp [asyncAct, hdraft, Act.run]
  | worker label =>
    simp only [AsyncClient.step, Option.ite_none_right_eq_some, Option.map_eq_some_iff] at h
    obtain ⟨-, base, hbase, rfl⟩ := h
    exact hbase
  | shutdown =>
    cases h
    rfl
  | send index =>
    simp only [AsyncClient.step, Option.ite_none_right_eq_some] at h
    obtain ⟨-, h⟩ := h
    cases hs : w.base.client.sender <;> simp only [hs] at h
    case stopped =>
      cases h
      simp [asyncAct, hs, Act.run, AsyncClient.World.advance]
    all_goals
      obtain ⟨base, hpush, rfl⟩ := Option.map_eq_some_iff.mp h
      simpa [asyncAct, hs, Act.run] using hpush
  | take index =>
    simp only [AsyncClient.step, Option.ite_none_right_eq_some] at h
    obtain ⟨-, h⟩ := h
    split at h <;> cases h <;> rfl
  | join index =>
    simp only [AsyncClient.step] at h
    split at h <;> cases h
    rfl

def async (env : Crates) (config : Config) : Client env config where
  State := AsyncClient.World
  Label := AsyncClient.Label
  step := AsyncClient.step env config
  base := AsyncClient.World.base
  act := asyncAct
  sound := asyncAct_sound

/-- The acts that matter to a flush. -/
inductive Kind where
  | flush | receive | timeout | pick | settle | other
  deriving DecidableEq

def Act.kind : Act → Kind
  | .step .flush => .flush
  | .step .receive => .receive
  | .step .timeout => .timeout
  | .step (.pick _) => .pick
  | .step .pause | .step (.answer _) | .step .transmit => .settle
  | _ => .other

/-- A client with its flushes. `marks` holds, for each flush in the queue, what was
accepted when it was queued, `serving` the same for the flush whose reply the
sender owes, and `counting` tells that the loop of `drain_spool` has ended and
`Spool::len` is to be called. -/
structure World (client : Client env config) where
  state : client.State
  marks : List (List Item)
  serving : Option (List Item)
  counting : Bool

def World.start {client : Client env config} (state : client.State) : World client :=
  ⟨state, [], none, false⟩

inductive Label (client : Client env config) where
  | client (label : client.Label)
  | count (listed : Bool)

/-- The sender is in `drain_spool`. -/
def drains : Sender → Bool
  | .draining | .redelivering .. | .reposted .. | .removing _ => true
  | .waiting | .delivering _ | .posted _ | .storing _ | .stopped => false

def idles : Sender → Bool
  | .waiting => true
  | .draining | .redelivering .. | .reposted .. | .removing _ | .delivering _ | .posted _
  | .storing _ | .stopped => false

/-- The next command is a flush. -/
def flushes : List Command → Bool
  | .flush :: _ => true
  | _ => false

def marksAfter (b : Blocking.World) (marks : List (List Item)) : Kind → List (List Item)
  | .flush => marks ++ [b.accepted]
  | .receive => if flushes b.client.queue then marks.tail else marks
  | .timeout | .pick | .settle | .other => marks

/-- A search that finds nothing, or fails, ends the drain; the timer starts one
that nobody waits for. -/
def servingAfter (b b' : Blocking.World) (marks : List (List Item)) (serving : Option (List Item)) :
    Kind → Option (List Item)
  | .receive => if flushes b.client.queue then marks.head? else none
  | .timeout => none
  | .pick => if idles b'.client.sender then none else serving
  | .flush | .settle | .other => serving

/-- The deadline, or an answer to try again, ends the loop of `drain_spool`. -/
def countingAfter (b b' : Blocking.World) (counting : Bool) : Kind → Bool
  | .settle => counting || (drains b.client.sender && idles b'.client.sender)
  | .flush | .receive | .timeout | .pick | .other => counting

def step (client : Client env config) (w : World client) : Label client → Option (World client)
  | .client label =>
    let b := client.base w.state
    let kind := (client.act w.state label).kind
    -- the sender takes no command before it has sent its reply
    if w.counting ∧ (kind = .receive ∨ kind = .timeout) then none
    else (client.step w.state label).map fun state =>
      { state
        marks := marksAfter b w.marks kind
        serving := servingAfter b (client.base state) w.marks w.serving kind
        counting := countingAfter b (client.base state) w.counting kind }
  | .count _ =>
    -- `len` takes the lock of the spool
    if w.counting ∧ (client.base w.state).storing.isNone then
      some { w with serving := none, counting := false }
    else none

/-- The search read every file and found no event. -/
def exhausted (env : Crates) (disk : Spool.Directory) (reads : Nat) : Bool :=
  disk.length ≤ reads ∧ (Spool.oldestLoop env ((Spool.paths disk).take reads) disk).2.isNone

/-- The report for the flush that is served, with what had been accepted before. -/
def report (client : Client env config) (w : World client) :
    Label client → Option (List Item × Nat)
  | .client label =>
    match client.act w.state label with
    | .step (.pick reads) =>
      if exhausted env (client.base w.state).disk reads then w.serving.map fun mark => (mark, 0)
      else none
    | _ => none
  | .count listed =>
    if listed then
      w.serving.map fun mark => (mark, (Spool.paths (client.base w.state).disk).length)
    else none

/-- No event of the capture is in the queue. -/
def NotQueued (queue : List Command) (origin : Nat) : Prop :=
  ∀ item ∈ queue.flatMap Command.items, item.origin ≠ origin

/-- A report that no file remains is true of every event accepted before the flush
was queued: it is neither queued nor on disk, and it has met its end. -/
def Kept (client : Client env config) (w : World client) (label : Label client) : Prop :=
  ∀ sent ∈ report client w label, sent.2 = 0 → ∀ w' ∈ step client w label, ∀ item ∈ sent.1,
    NotQueued (client.base w'.state).client.queue item.origin ∧
      (∀ f ∈ (client.base w'.state).disk, f.origin ≠ item.origin) ∧
      Ended (client.base w'.state) item.origin

/-- File names are new, as for the client itself. -/
def FreshName (leftover : Spool.Directory) (client : Client env config) (w : World client) :
    Label client → Prop
  | .client label =>
    match client.act w.state label with
    | .step label => Conservation.FreshName leftover (client.base w.state) label
    | .capture _ | .stop | .idle => True
  | .count _ => True

/-- What the sender and the accepted events become in an act. -/
structure Effect (b b' : Blocking.World) (kind : Kind) : Prop where
  move : Move b b'
  waits : Waits b'
  accepted : ∃ new, b'.accepted = new ++ b.accepted ∧
    ∀ item ∈ new, item.origin ∈ held b ∨ item.origin < b'.captured
  idle : idles b.client.sender → kind ≠ .receive → kind ≠ .timeout → idles b'.client.sender

/-- What an act does to the queue. -/
def Queued (b b' : Blocking.World) : Kind → Prop
  | .flush => b'.client.queue = b.client.queue ++ [.flush]
  | .receive => ∃ command, b.client.queue = command :: b'.client.queue
  | .timeout | .pick | .settle | .other => b'.client.queue = b.client.queue ∨
    b'.client.queue = b.client.queue ++ [.shutdown] ∨
    ∃ item, item.origin = b.captured ∧ b'.client.queue = b.client.queue ++ [.event item]

/-- The effect of one act, and what it does to the queue. -/
def Sound (b b' : Blocking.World) (kind : Kind) : Prop := Effect b b' kind ∧ Queued b b' kind

/-- Behind each flush of the queue there is no event that was accepted before it. -/
def Behind : List Command → List (List Item) → Prop
  | [], marks => marks = []
  | .flush :: queue, marks =>
    ∃ mark rest, marks = mark :: rest ∧ (∀ item ∈ mark, NotQueued queue item.origin) ∧
      Behind queue rest
  | .event _ :: queue, marks | .shutdown :: queue, marks => Behind queue marks

theorem notQueued_append {queue : List Command} {origin : Nat} {command : Command}
    (h : NotQueued queue origin) (hnew : ∀ item ∈ command.items, item.origin ≠ origin) :
    NotQueued (queue ++ [command]) origin := by
  intro item hitem
  rw [List.flatMap_append, List.flatMap_singleton, List.mem_append] at hitem
  exact hitem.elim (h item) (hnew item)

/-- A command that is not a flush and brings no event accepted before. -/
theorem Behind.append {queue : List Command} {marks : List (List Item)} {command : Command}
    (h : Behind queue marks) (hcommand : command ≠ .flush)
    (hnew : ∀ mark ∈ marks, ∀ item ∈ mark, ∀ i ∈ command.items, i.origin ≠ item.origin) :
    Behind (queue ++ [command]) marks := by
  induction queue generalizing marks with
  | nil =>
    cases command with
    | flush => exact absurd rfl hcommand
    | event item => exact h
    | shutdown => exact h
  | cons head queue ih =>
    cases head with
    | flush =>
      obtain ⟨mark, rest, rfl, hmark, hrest⟩ := h
      refine ⟨mark, rest, rfl, fun item hitem => ?_, ih hrest fun m hm => ?_⟩
      · exact notQueued_append (hmark item hitem) (hnew mark List.mem_cons_self item hitem)
      · exact hnew m (List.mem_cons_of_mem _ hm)
    | event item => exact ih h hnew
    | shutdown => exact ih h hnew

theorem Behind.flush {queue : List Command} {marks : List (List Item)} (h : Behind queue marks)
    (mark : List Item) : Behind (queue ++ [.flush]) (marks ++ [mark]) := by
  induction queue generalizing marks with
  | nil =>
    obtain rfl : marks = [] := h
    exact ⟨mark, [], rfl, fun item _ i hi => (nomatch hi), rfl⟩
  | cons head queue ih =>
    cases head with
    | flush =>
      obtain ⟨first, rest, rfl, hmark, hrest⟩ := h
      refine ⟨first, rest ++ [mark], rfl, fun item hitem => ?_, ih hrest⟩
      exact notQueued_append (hmark item hitem) fun i hi => by cases hi
    | event item => exact ih h
    | shutdown => exact ih h

/-- What an act adds to the queue, if it is no flush, is new. -/
theorem queued_cases {kind : Kind} (h : Queued b b' kind) (hflush : kind ≠ .flush)
    (hreceive : kind ≠ .receive) : b'.client.queue = b.client.queue ∨
      ∃ command, b'.client.queue = b.client.queue ++ [command] ∧ command ≠ .flush ∧
        ∀ i ∈ command.items, i.origin = b.captured := by
  have hcases : b'.client.queue = b.client.queue ∨
      b'.client.queue = b.client.queue ++ [.shutdown] ∨
      ∃ item, item.origin = b.captured ∧ b'.client.queue = b.client.queue ++ [.event item] := by
    cases kind with
    | flush => exact absurd rfl hflush
    | receive => exact absurd rfl hreceive
    | timeout | pick | settle | other => exact h
  rcases hcases with hsame | hstop | ⟨item, horigin, hevent⟩
  · exact .inl hsame
  · exact .inr ⟨.shutdown, hstop, by simp, fun i hi => (nomatch hi)⟩
  · refine .inr ⟨.event item, hevent, by simp, fun i hi => ?_⟩
    obtain rfl := List.mem_singleton.mp hi
    exact horigin

theorem captured_le (h : Move b b') : b.captured ≤ b'.captured := by
  cases h with
  | kept _ _ _ _ hcaptured => omega
  | captured _ _ _ _ hcaptured => omega
  | placed _ _ _ _ _ _ _ hcaptured => omega
  | returned _ hr => exact Nat.le_of_eq hr.captured.symm

/-- What was accepted before a flush is not behind it, and when it is served it is
in the queue no more. -/
structure Inv (env : Crates) (leftover : Spool.Directory) (b : Blocking.World)
    (marks : List (List Item)) (serving : Option (List Item)) (counting : Bool) : Prop where
  conserved : Conservation.Inv env leftover b
  waits : Waits b
  located : Located b []
  old : ∀ item ∈ b.accepted, item.origin < b.captured
  behind : Behind b.client.queue marks
  marked : ∀ mark ∈ marks, ∀ item ∈ mark, item ∈ b.accepted
  served : ∀ mark, serving = some mark → ∀ item ∈ mark,
    item ∈ b.accepted ∧ NotQueued b.client.queue item.origin
  counting : counting = true → idles b.client.sender

variable {marks : List (List Item)} {serving : Option (List Item)} {counting : Bool} {kind : Kind}

theorem Inv.notQueued (h : Inv env leftover b marks serving counting) (hq : Queued b b' kind)
    (hreceive : kind ≠ .receive) {item : Item} (hitem : item ∈ b.accepted)
    (hnot : NotQueued b.client.queue item.origin) : NotQueued b'.client.queue item.origin := by
  by_cases hflush : kind = .flush
  · subst hflush
    rw [show b'.client.queue = b.client.queue ++ [.flush] from hq]
    exact notQueued_append hnot fun i hi => (nomatch hi)
  · rcases queued_cases hq hflush hreceive with hsame | ⟨command, happend, -, hnew⟩
    · rwa [hsame]
    · rw [happend]
      refine notQueued_append hnot fun i hi => ?_
      have := h.old item hitem
      have := hnew i hi
      omega

theorem Inv.behind_after (h : Inv env leftover b marks serving counting) (hq : Queued b b' kind) :
    Behind b'.client.queue (marksAfter b marks kind) := by
  by_cases hflush : kind = .flush
  · subst hflush
    rw [show b'.client.queue = b.client.queue ++ [.flush] from hq]
    exact h.behind.flush b.accepted
  · by_cases hreceive : kind = .receive
    · subst hreceive
      obtain ⟨command, hqueue⟩ := hq
      have hbehind := h.behind
      rw [hqueue] at hbehind
      cases command with
      | flush =>
        obtain ⟨mark, rest, rfl, -, hrest⟩ := hbehind
        simpa [marksAfter, hqueue, flushes] using hrest
      | event item | shutdown =>
        have hbehind : Behind b'.client.queue marks := hbehind
        simpa [marksAfter, hqueue, flushes] using hbehind
    · have hmarks : marksAfter b marks kind = marks := by
        cases kind with
        | flush => exact absurd rfl hflush
        | receive => exact absurd rfl hreceive
        | timeout | pick | settle | other => rfl
      rw [hmarks]
      rcases queued_cases hq hflush hreceive with hsame | ⟨command, happend, hne, hnew⟩
      · rw [hsame]
        exact h.behind
      · rw [happend]
        refine h.behind.append hne fun mark hmark item hitem i hi => ?_
        have := h.old item (h.marked mark hmark item hitem)
        have := hnew i hi
        omega

theorem mem_marksAfter {mark : List Item} (h : mark ∈ marksAfter b marks kind) :
    mark ∈ marks ∨ mark = b.accepted := by
  cases kind with
  | flush => simpa [marksAfter] using h
  | receive =>
    simp only [marksAfter] at h
    split at h
    · exact .inl (List.mem_of_mem_tail h)
    · exact .inl h
  | timeout | pick | settle | other => exact .inl h

theorem Inv.served_after (h : Inv env leftover b marks serving counting) (hq : Queued b b' kind)
    {mark : List Item} (hmark : servingAfter b b' marks serving kind = some mark) {item : Item}
    (hitem : item ∈ mark) : item ∈ b.accepted ∧ NotQueued b'.client.queue item.origin := by
  have hsame : kind ≠ .receive → serving = some mark →
      item ∈ b.accepted ∧ NotQueued b'.client.queue item.origin := by
    intro hreceive hserving
    obtain ⟨haccepted, hnot⟩ := h.served mark hserving item hitem
    exact ⟨haccepted, h.notQueued hq hreceive haccepted hnot⟩
  cases kind with
  | receive =>
    obtain ⟨command, hqueue⟩ := hq
    have hbehind := h.behind
    rw [hqueue] at hbehind
    cases command with
    | flush =>
      obtain ⟨first, rest, rfl, hfirst, -⟩ := hbehind
      obtain rfl : first = mark := by simpa [servingAfter, hqueue, flushes] using hmark
      exact ⟨h.marked first List.mem_cons_self item hitem, hfirst item hitem⟩
    | event i => simp [servingAfter, hqueue, flushes] at hmark
    | shutdown => simp [servingAfter, hqueue, flushes] at hmark
  | timeout => cases hmark
  | pick =>
    simp only [servingAfter] at hmark
    split at hmark
    · cases hmark
    · exact hsame (by simp) hmark
  | flush | settle | other => exact hsame (by simp) hmark

theorem Inv.sound (h : Inv env leftover b marks serving counting)
    (hconserved : Conservation.Inv env leftover b') (hs : Sound b b' kind)
    (hcounting : counting = true → kind ≠ .receive ∧ kind ≠ .timeout) :
    Inv env leftover b' (marksAfter b marks kind) (servingAfter b b' marks serving kind)
      (countingAfter b b' counting kind) := by
  obtain ⟨heffect, hqueued⟩ := hs
  obtain ⟨new, haccepted, hnew⟩ := heffect.accepted
  have hmono : ∀ item ∈ b.accepted, item ∈ b'.accepted := fun item hitem => by
    rw [haccepted]
    exact List.mem_append_right _ hitem
  have hle := captured_le heffect.move
  refine ⟨hconserved, heffect.waits, h.located.move heffect.move, fun item hitem => ?_,
    h.behind_after hqueued, fun mark hmark item hitem => ?_, fun mark hmark item hitem => ?_,
    fun hcount => ?_⟩
  · rw [haccepted] at hitem
    rcases List.mem_append.mp hitem with hitem | hitem
    · rcases hnew item hitem with hheld | hlt
      · have := h.located.old _ (.inl hheld)
        omega
      · exact hlt
    · have := h.old item hitem
      omega
  · rcases mem_marksAfter hmark with hmark | rfl
    · exact hmono item (h.marked mark hmark item hitem)
    · exact hmono item hitem
  · obtain ⟨haccepted, hnot⟩ := h.served_after hqueued hmark hitem
    exact ⟨hmono item haccepted, hnot⟩
  · have hidle : counting = true → idles b'.client.sender := fun hc =>
      heffect.idle (h.counting hc) (hcounting hc).1 (hcounting hc).2
    cases kind with
    | settle =>
      simp only [countingAfter, Bool.or_eq_true, Bool.and_eq_true] at hcount
      rcases hcount with hc | ⟨-, hc⟩
      · exact hidle hc
      · exact hc
    | flush | receive | timeout | pick | other => exact hidle hcount

section Runs

variable {client : Client env config} {w w' : World client}

def World.Inv (leftover : Spool.Directory) (w : World client) : Prop :=
  Barrier.Inv env leftover (client.base w.state) w.marks w.serving w.counting

theorem inv_count {listed : Bool} (h : w.Inv leftover)
    (hstep : step client w (.count listed) = some w') : w'.Inv leftover := by
  simp only [step] at hstep
  split at hstep <;> cases hstep
  exact { h with
    served := fun mark hmark => by cases hmark
    counting := fun hcount => by cases hcount }

theorem inv_start (hdistinct : (leftover.map Spool.File.name).Nodup) {sequence : Nat}
    {state : client.State} (hstate : client.base state = Blocking.World.start leftover sequence) :
    (World.start state).Inv leftover := by
  unfold World.Inv World.start
  rw [hstate]
  refine ⟨Conservation.inv_start hdistinct sequence, waits_start leftover sequence,
    located_start leftover sequence, fun item hitem => ?_, rfl, fun mark hmark => ?_,
    fun mark hmark => ?_, fun hcounting => ?_⟩
  · cases hitem
  · cases hmark
  · cases hmark
  · cases hcounting

end Runs

instance {client : Client env config} (w : World client) :
    ∀ label, Decidable (FreshName leftover client w label)
  | .client label =>
    match h : client.act w.state label with
    | .step label =>
      decidable_of_iff (Conservation.FreshName leftover (client.base w.state) label)
        (by simp [FreshName, h])
    | .capture _ | .stop | .idle => isTrue (by simp [FreshName, h])
  | .count _ => isTrue trivial

namespace Sample

open Stopping.Sample

def draft : Draft := ⟨Zbierak.Sample.event "m", "e1", "2026-01-02T03:04:06Z", []⟩

/-- The event is queued, the server is down, and the event is spooled; the flush
finds the server up again. -/
def outage : List Blocking.Label :=
  [.receive, .transmit, .answer (.ok 503), .lockSender, .place true 1767323046000 "8a01",
    .list true, .evict true, .flush, .receive, .pick 3, .transmit, .answer (.ok 200), .remove true,
    .pick 3, .transmit, .answer (.ok 200), .remove true]

end Sample

end Zbierak.Barrier
