import Zbierak.Conservation

/-!
# How the blocking client stops

The last clone asks the sender to stop when no capture is under way any more, so
that its request is the last command of the queue and the sender has seen every
event before it.
-/
namespace Zbierak.Stopping

open Sdk Blocking Conservation

variable {env : Crates} {config : Config} {leftover : Spool.Directory} {w w' : World}

/-- Nobody captures once the last clone is being dropped, and nothing is queued
behind its request to stop. -/
structure Closing (w : World) : Prop where
  quiet : w.handles ≠ .held → w.client.spilling = [] ∧
    ∀ call, w.storing = some call → call.caller = .sender
  last : ∀ before after, w.client.queue = before ++ .shutdown :: after →
    w.handles = .joining ∧ after = []
  stopped : w.client.sender = .stopped → w.client.queue = [] ∧ w.handles = .joining

theorem Closing.not_mem (h : Closing w) (hhandles : w.handles ≠ .joining) :
    Command.shutdown ∉ w.client.queue := by
  intro hmem
  obtain ⟨before, after, hqueue⟩ := List.append_of_mem hmem
  exact hhandles (h.last before after hqueue).1

theorem Closing.running (h : Closing w) (hhandles : w.handles ≠ .joining) :
    w.client.sender ≠ .stopped :=
  fun hstopped => hhandles (h.stopped hstopped).2

/-- While clones are left, anything but a request to stop may be queued. -/
theorem closing_of_held (h : Closing w) (hheld : w.handles = .held) (hhandles : w'.handles = .held)
    (hsender : w'.client.sender = w.client.sender)
    (hqueue : ∀ command ∈ w'.client.queue, command ∈ w.client.queue ∨ command ≠ .shutdown) :
    Closing w' := by
  have hjoining : w.handles ≠ .joining := by simp [hheld]
  refine ⟨fun hnot => absurd hhandles hnot, fun before after happend => ?_, fun hstopped => ?_⟩
  · have hmem : Command.shutdown ∈ w'.client.queue := by simp [happend]
    rcases hqueue _ hmem with hmem | hne
    · exact absurd hmem (h.not_mem hjoining)
    · exact absurd rfl hne
  · exact absurd (hsender.symm.trans hstopped) (h.running hjoining)

/-- Steps of the sender and of `Spool::store`. -/
theorem closing_of_frame (h : Closing w) (hhandles : w'.handles = w.handles)
    (hqueue : w'.client.queue = w.client.queue) (hspilling : w'.client.spilling = w.client.spilling)
    (hstoring : ∀ call', w'.storing = some call' →
      call'.caller = .sender ∨ ∃ call, w.storing = some call ∧ call'.caller = call.caller)
    (hsender : w'.client.sender = .stopped → w.client.sender = .stopped) : Closing w' := by
  refine ⟨fun hnot => ?_, fun before after happend => ?_, fun hstopped => ?_⟩
  · obtain ⟨hempty, hcalls⟩ := h.quiet (hhandles ▸ hnot)
    refine ⟨hspilling.trans hempty, fun call' hcall' => ?_⟩
    rcases hstoring call' hcall' with hcaller | ⟨call, hcall, hcaller⟩
    · exact hcaller
    · exact hcaller.trans (hcalls call hcall)
  · rw [hhandles]
    exact h.last before after (hqueue ▸ happend)
  · rw [hhandles, hqueue]
    exact h.stopped (hsender hstopped)

theorem closing_capture (h : Closing w) (hheld : w.handles = .held) (event : Event)
    (uuid timestamp : String) (breadcrumbs : List Breadcrumb) :
    Closing (capture env config w event uuid timestamp breadcrumbs) := by
  unfold capture
  split
  · exact h
  · dsimp only
    split
    · exact h
    · next client hclient =>
      unfold Process.enqueue at hclient
      split at hclient
      · cases hclient
      · split at hclient <;> cases hclient
        · refine closing_of_held h hheld hheld rfl fun command hmem => ?_
          rcases List.mem_append.mp hmem with hmem | hmem
          · exact .inl hmem
          · obtain rfl := List.mem_singleton.mp hmem
            exact .inr nofun
        · exact closing_of_held h hheld hheld rfl fun command hmem => .inl hmem

theorem closing_shutdown (h : Closing w) (hhandles : w.handles = .dropping)
    (hpush : push config w .shutdown = some w') : Closing { w' with handles := .joining } := by
  simp only [push, Option.ite_none_right_eq_some, Option.some.injEq] at hpush
  obtain ⟨-, rfl⟩ := hpush
  have hjoining : w.handles ≠ .joining := by simp [hhandles]
  refine ⟨fun _ => h.quiet (by simp [hhandles]), fun before after happend => ⟨rfl, ?_⟩,
    fun hstopped => absurd hstopped (h.running hjoining)⟩
  rcases List.eq_nil_or_concat after with rfl | ⟨rest, command, rfl⟩
  · rfl
  · rw [List.concat_eq_append, ← List.cons_append, ← List.append_assoc] at happend
    have hqueue := List.append_inj_left' happend rfl
    exact absurd (by simp [hqueue]) (h.not_mem hjoining)

theorem closing_receive (h : Closing w) {client : Process} (hr : w.client.receive = some client) :
    Closing { w with client } := by
  have htail : ∃ command, w.client.queue = command :: client.queue ∧
      client.spilling = w.client.spilling ∧ (client.sender = .stopped → command = .shutdown) := by
    unfold Process.receive at hr
    split at hr <;> cases hr <;> exact ⟨_, by assumption, rfl, by simp⟩
  obtain ⟨command, hqueue, hspilling, hstopped⟩ := htail
  refine ⟨fun hnot => ?_, fun before after happend => ?_, fun hsender => ?_⟩
  · obtain ⟨hempty, hcalls⟩ := h.quiet hnot
    exact ⟨hspilling.trans hempty, hcalls⟩
  · exact h.last (command :: before) after (by rw [hqueue, happend, List.cons_append])
  · obtain rfl := hstopped hsender
    obtain ⟨hjoining, hrest⟩ := h.last [] client.queue hqueue
    exact ⟨hrest, hjoining⟩

theorem closing_setSender (h : Closing w) {sender : Sender} (hs : sender ≠ .stopped) :
    Closing (w.setSender sender) :=
  closing_of_frame h rfl rfl rfl (fun call hcall => .inr ⟨call, hcall, rfl⟩) fun hstopped =>
    absurd hstopped hs

theorem closing_disk (h : Closing w) (disk : Spool.Directory) : Closing { w with disk } :=
  closing_of_frame h rfl rfl rfl (fun call hcall => .inr ⟨call, hcall, rfl⟩) id

theorem closing_finish (h : Closing w) (caller : Caller) (item : Item) (ok : Bool) :
    Closing (finish w caller item ok) := by
  refine closing_of_frame h (by cases caller <;> rfl) (by cases caller <;> rfl)
    (by cases caller <;> rfl) (fun call hcall => ?_) fun hstopped => ?_
  · cases caller <;> cases hcall
  · cases caller with
    | capture => exact hstopped
    | sender => cases hstopped

/-- A `Spool::store` goes on for the same caller. -/
theorem closing_call (h : Closing w) {caller : Caller} {item : Item} {phase phase' : Phase}
    (hcall : w.storing = some ⟨caller, item, phase⟩) {disk : Spool.Directory} {sequence : Nat}
    {evicted : List Nat} :
    Closing { w with disk, sequence, evicted, storing := some ⟨caller, item, phase'⟩ } := by
  refine closing_of_frame h rfl rfl rfl (fun call' hcall' => ?_) id
  obtain rfl := Option.some.inj hcall'
  exact .inr ⟨_, hcall, rfl⟩

theorem closing_lock (h : Closing w) {caller : Caller} {item : Item}
    (hcaller : w.handles ≠ .held → caller = .sender)
    (hl : lock env config w caller item = some w') : Closing w' := by
  obtain ⟨-, ⟨bytes, -, rfl⟩ | ⟨-, rfl⟩⟩ := lock_some hl
  · refine ⟨fun hnot => ⟨(h.quiet hnot).1, fun call hcall => ?_⟩, h.last, h.stopped⟩
    obtain rfl := Option.some.inj hcall
    exact hcaller hnot
  · exact closing_finish h caller item false

/-- A capture that is about to spool its event keeps the client alive. -/
theorem closing_lockCapture (h : Closing w) {index : Nat}
    (hstep : step env config w (.lockCapture index) = some w') : Closing w' := by
  obtain ⟨item, hitem, hlock⟩ := step_lockCapture hstep
  have hheld : w.handles = .held := by
    refine Decidable.byContradiction fun hnot => ?_
    rw [(h.quiet hnot).1] at hitem
    cases hitem
  have herased : Closing { w with
      client := { w.client with spilling := w.client.spilling.eraseIdx index } } :=
    closing_of_held h hheld hheld rfl fun command hmem => .inl hmem
  exact closing_lock herased (fun hnot => absurd hheld hnot) hlock

theorem settle_running {result : Delivery} {sender sender' : Sender}
    (h : sender.settle result = some sender') : sender' ≠ .stopped := by
  cases sender <;> cases result <;> cases h <;> simp

theorem closing_evict (h : Closing w) {caller : Caller} {item : Item} {served : Bool} {total : Nat}
    {files : List Spool.File} (hstoring : w.storing = some ⟨caller, item, .evicting total files⟩) :
    Closing (evict config w caller item served total files) := by
  obtain ⟨-, hevict⟩ | ⟨f, rest, -, -, ⟨-, hevict⟩ | ⟨-, hevict⟩⟩ :=
    evict_cases config w caller item served total files
  · rw [hevict]
    exact closing_finish h caller item true
  · rw [hevict]
    exact closing_call h hstoring
  · rw [hevict]
    exact closing_finish h caller item false

theorem closing_step {label : Label} (h : Closing w) (hstep : step env config w label = some w') :
    Closing w' := by
  cases label with
  | capture event uuid timestamp breadcrumbs =>
    obtain ⟨hheld, rfl⟩ := step_capture hstep
    exact closing_capture h hheld event uuid timestamp breadcrumbs
  | flush =>
    obtain ⟨hheld, hpush⟩ := step_flush hstep
    obtain ⟨-, rfl⟩ := push_some hpush
    refine closing_of_held h hheld hheld rfl fun command hmem => ?_
    rcases List.mem_append.mp hmem with hmem | hmem
    · exact .inl hmem
    · obtain rfl := List.mem_singleton.mp hmem
      exact .inr (by simp)
  | drop =>
    obtain ⟨⟨hheld, hempty, hcalls⟩, rfl⟩ := step_drop hstep
    have hjoining : w.handles ≠ .joining := by simp [hheld]
    refine ⟨fun _ => ⟨hempty, hcalls⟩, fun before after happend => ?_,
      fun hstopped => absurd hstopped (h.running hjoining)⟩
    exact absurd (by simp [show w.client.queue = _ from happend]) (h.not_mem hjoining)
  | shutdown =>
    obtain ⟨hdropping, pushed, hpush, rfl⟩ := step_shutdown hstep
    exact closing_shutdown h hdropping hpush
  | receive =>
    obtain ⟨client, hr, rfl⟩ := step_receive hstep
    exact closing_receive h hr
  | timeout =>
    obtain ⟨-, -, rfl⟩ := step_timeout hstep
    exact closing_setSender h (by simp)
  | transmit =>
    obtain ⟨item, posted, sender, hout, rfl | hsettle, rfl⟩ := step_transmit hstep
    · refine closing_setSender h ?_
      rintro rfl
      cases (items_outgoing hout).2
    · exact closing_setSender h (settle_running hsettle)
  | answer response =>
    have ha := answered hstep
    obtain ⟨sender, -, rfl⟩ := Option.map_eq_some_iff.mp hstep
    exact closing_of_frame h rfl rfl rfl (fun call hcall => .inr ⟨call, hcall, rfl⟩)
      fun hstopped => absurd hstopped (settle_running ha.settle)
  | lockCapture index => exact closing_lockCapture h hstep
  | lockSender =>
    obtain ⟨item, -, hlock⟩ := step_lockSender hstep
    exact closing_lock h (fun _ => rfl) hlock
  | place served timestamp uuid =>
    obtain ⟨caller, item, bytes, hstoring, ⟨-, rfl⟩ | ⟨-, rfl⟩⟩ := step_place hstep
    · exact closing_call h hstoring
    · have hnext : Closing { w with sequence := w.sequence + 1 } :=
        closing_of_frame h rfl rfl rfl (fun call hcall => .inr ⟨call, hcall, rfl⟩) id
      exact closing_finish hnext caller item false
  | list served =>
    obtain ⟨caller, item, hstoring, ⟨-, rfl⟩ | ⟨-, rfl⟩⟩ := step_list hstep
    · exact closing_call h hstoring
    · exact closing_finish h caller item false
  | evict served =>
    obtain ⟨caller, item, total, files, hstoring, rfl⟩ := step_evict hstep
    exact closing_evict h hstoring
  | pick reads =>
    obtain ⟨-, -, disk, ⟨-, rfl⟩ | ⟨file, event, -, rfl⟩⟩ := step_pick hstep
    · exact closing_setSender (closing_disk h disk) (by simp)
    · exact closing_setSender (closing_disk h disk) (by simp)
  | pause =>
    obtain ⟨-, rfl⟩ := step_pause hstep
    exact closing_setSender h (by simp)
  | remove served =>
    obtain ⟨file, -, rfl⟩ := step_remove hstep
    exact closing_setSender (closing_disk h _) (by simp)

theorem closing_start (sequence : Nat) : Closing (World.start leftover sequence) := by
  refine ⟨fun hnot => absurd rfl hnot, fun before after happend => ?_, nofun⟩
  exact absurd happend (by simp [World.start, Process.start])

/-- Where an accepted event is, or how it ended: with a 2xx answer, with a status
that is not retried, evicted by the bound, or refused by the spool. -/
def Accounted (env : Crates) (w : World) (item : Item) : Prop :=
  item ∈ w.client.queue.flatMap Command.items ∨ item ∈ w.client.sender.items ∨
    (∃ f ∈ w.disk, f.origin = item.origin ∧ env.eventToVec item.event = .ok f.bytes) ∨
    (∃ status, (item.origin, status) ∈ w.answers ∧
      ((200 ≤ status ∧ status ≤ 299) ∨ isRetryable status = false)) ∨
    item.origin ∈ w.evicted ∨ item.origin ∈ w.unstored

theorem Accounted.of_safe {item : Item} (h : Safe env w item) : Accounted env w item := by
  rcases h with hmem | hdisk | hended
  · rcases List.mem_append.mp hmem with hqueue | hcarried
    · exact .inl hqueue
    · refine .inr (.inl ?_)
      cases hs : w.client.sender <;> simp_all [carried, Sender.items]
  · exact .inr (.inr (.inl hdisk))
  · exact .inr (.inr (.inr hended))

/-- In every state of the client an accepted event is queued, in the hands of the
sender, or on disk, or it has met its end; and once the sender has stopped, no
command is left in the queue. -/
theorem no_silent_loss (hread : ReadsBack env) (hdistinct : (leftover.map Spool.File.name).Nodup)
    {sequence : Nat} {labels : List Label}
    (hrun : Runs.run (step env config) labels (World.start leftover sequence) = some w)
    (hfresh : Runs.Along (step env config) (FreshName leftover) labels
      (World.start leftover sequence)) :
    (∀ item ∈ w.accepted, Accounted env w item) ∧
      (w.client.sender = .stopped → w.client.queue = []) := by
  have hinv : Inv env leftover w :=
    Runs.along_invariant (fun _ _ _ h hc hs => inv_step hread h hc hs) hrun hfresh
      (inv_start hdistinct sequence)
  have hclosing : Closing w :=
    Runs.run_invariant (fun _ _ _ h hs => closing_step h hs) hrun (closing_start sequence)
  exact ⟨fun item hitem => .of_safe (hinv.accepted item hitem),
    fun hstopped => (hclosing.stopped hstopped).1⟩

instance (leftover : Spool.Directory) (w : World) : ∀ label, Decidable (FreshName leftover w label)
  | .place _ timestamp uuid =>
    inferInstanceAs (Decidable (∀ f ∈ leftover, f.name ≠ fileName timestamp w.sequence uuid))
  | .capture .. | .flush | .drop | .shutdown | .receive | .timeout | .transmit | .answer _
  | .lockCapture _ | .lockSender | .list _ | .evict _ | .pick _ | .pause | .remove _ => isTrue trivial

/-- A library that reads back whatever it wrote. -/
def Sample.codec : Crates := { Sample.crates with
  eventFromSlice := fun bytes =>
    if bytes = Sample.eventBody "n" then .ok (Sample.event "n") else .ok (Sample.event "m") }

theorem Sample.readsBack : ReadsBack Sample.codec := by
  intro event bytes _
  by_cases h : bytes = Sample.eventBody "n"
  · exact ⟨_, if_pos h⟩
  · exact ⟨_, if_neg h⟩

def Sample.smallQueue : Config := ⟨none, "spool", 1000, 1, ⟨none, none, none, none⟩⟩

/-- A file that an earlier client left. -/
def Sample.found : Spool.Directory :=
  [⟨fileName 1767323045000 0 "7d9f", Sample.eventBody "n", 0⟩]

/-- The second capture finds the queue full and goes to disk, the first one
follows when the server is down; then the client is dropped. -/
def Sample.outage : List Label :=
  [.capture (Sample.event "m") "e1" "2026-01-02T03:04:06Z" [],
    .capture (Sample.event "n") "e1" "2026-01-02T03:04:06Z" [],
    .lockCapture 0, .receive, .place true 1767323046000 "8a01", .list true, .transmit, .evict true,
    .answer (.ok 503), .lockSender, .place true 1767323046001 "8a02", .list true, .evict true,
    .timeout, .pick 3, .transmit, .answer (.ok 200), .remove true, .pause, .drop, .shutdown, .receive]

set_option maxRecDepth 20000 in
theorem no_silent_loss_outage :
    ∃ w, Runs.run (step Sample.codec Sample.smallQueue) Sample.outage (World.start Sample.found 0) =
        some w ∧
      (∀ item ∈ w.accepted, Accounted Sample.codec w item) ∧
      (w.client.sender = .stopped → w.client.queue = []) := by
  have hsome : (Runs.run (step Sample.codec Sample.smallQueue) Sample.outage
      (World.start Sample.found 0)).isSome = true := by decide +kernel
  obtain ⟨w, hw⟩ := Option.isSome_iff_exists.mp hsome
  exact ⟨w, hw, no_silent_loss Sample.readsBack (by decide +kernel) hw (by decide +kernel)⟩

end Zbierak.Stopping
