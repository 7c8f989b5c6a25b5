import Zbierak.Blocking
import Zbierak.Lib.Runs
import Zbierak.Lib.Text

/-!
# No accepted event is lost in silence

An event whose capture returned its identifier is queued, in the hands of the
sender, or on disk, until it is answered for good, evicted, or refused by the
spool. The order of the steps does not matter: each of them keeps what is safe.
-/
namespace Zbierak.Conservation

open Sdk Blocking

variable {env : Crates} {config : Config} {leftover : Spool.Directory} {w w' : World}

/-- The event the sender alone holds; one read from the spool is still on disk. -/
def carried : Sender → List Item
  | .delivering item | .posted item | .storing item => [item]
  | .waiting | .draining | .redelivering _ _ | .reposted _ _ | .removing _ | .stopped => []

def inMemory (w : World) : List Item :=
  w.client.queue.flatMap Command.items ++ carried w.client.sender

def OnDisk (env : Crates) (w : World) (item : Item) : Prop :=
  ∃ f ∈ w.disk, f.origin = item.origin ∧ env.eventToVec item.event = .ok f.bytes

/-- A status after which the client does not try again. -/
def Final (status : Nat) : Prop := (200 ≤ status ∧ status ≤ 299) ∨ isRetryable status = false

def Ended (w : World) (origin : Nat) : Prop :=
  (∃ status, (origin, status) ∈ w.answers ∧ Final status) ∨ origin ∈ w.evicted ∨
    origin ∈ w.unstored

/-- Out of memory, but written to disk at some time. -/
def Stored (env : Crates) (w : World) (item : Item) : Prop :=
  OnDisk env w item ∨ Ended w item.origin

def Safe (env : Crates) (w : World) (item : Item) : Prop := item ∈ inMemory w ∨ Stored env w item

/-- Every event file can be read back. -/
def ReadsBack (env : Crates) : Prop :=
  ∀ event bytes, env.eventToVec event = .ok bytes → ∃ event', env.eventFromSlice bytes = .ok event'

/-- What a step must keep so that nothing accepted is lost. -/
structure Kept (env : Crates) (w w' : World) : Prop where
  memory : ∀ item ∈ inMemory w, Safe env w' item
  disk : ∀ f ∈ w.disk, (∃ event, env.eventToVec event = .ok f.bytes) → f ∈ w'.disk ∨ Ended w' f.origin
  ended : ∀ origin, Ended w origin → Ended w' origin

theorem Kept.stored (h : Kept env w w') {item : Item} (hs : Stored env w item) :
    Stored env w' item := by
  rcases hs with ⟨f, hf, horigin, hbytes⟩ | hended
  · rcases h.disk f hf ⟨_, hbytes⟩ with hf | hended
    · exact .inl ⟨f, hf, horigin, hbytes⟩
    · exact .inr (horigin ▸ hended)
  · exact .inr (h.ended _ hended)

theorem Kept.safe (h : Kept env w w') {item : Item} (hs : Safe env w item) : Safe env w' item := by
  rcases hs with hmem | hs
  · exact h.memory item hmem
  · exact .inr (h.stored hs)

/-- The names files of this client can have: those it found, and those made from
a sequence number that is taken. -/
def Used (leftover : Spool.Directory) (sequence : Nat) (name : String) : Prop :=
  (∃ f ∈ leftover, f.name = name) ∨
    ∃ timestamp n uuid, n < sequence ∧ name = fileName timestamp n uuid

/-- The spooled file the sender is working on. -/
def fileOf : Sender → Option String
  | .redelivering file _ | .reposted file _ | .removing file => some file
  | .waiting | .delivering _ | .posted _ | .storing _ | .draining | .stopped => none

/-- What `fileOf` says about the files of that name. -/
def Hand (w : World) : Prop :=
  match w.client.sender with
  | .redelivering file item | .reposted file item =>
    ∀ f ∈ w.disk, f.name = file → f.origin = item.origin
  | .removing file => ∀ f ∈ w.disk, f.name = file → Ended w f.origin
  | _ => True

/-- The running `Spool::store`: the bytes are those of its event until they are
on disk, and the sender waits if it is the caller. -/
structure Call (env : Crates) (w : World) (call : Storing) : Prop where
  waits : call.caller = .sender → w.client.sender = .storing call.item
  writes : match call.phase with
    | .writing bytes => env.eventToVec call.item.event = .ok bytes
    | .bounding | .evicting _ _ => Stored env w call.item

structure Inv (env : Crates) (leftover : Spool.Directory) (w : World) : Prop where
  distinct : ∀ f ∈ w.disk, ∀ g ∈ w.disk, f.name = g.name → f = g
  used : ∀ f ∈ w.disk, Used leftover w.sequence f.name
  busy : ∀ file, fileOf w.client.sender = some file → Used leftover w.sequence file
  hand : Hand w
  call : ∀ call, w.storing = some call → Call env w call
  accepted : ∀ item ∈ w.accepted, Safe env w item

/-- File names end in a random identifier, so that a new one is none of those
found at the start. -/
def FreshName (leftover : Spool.Directory) (w : World) : Label → Prop
  | .place _ timestamp uuid => ∀ f ∈ leftover, f.name ≠ fileName timestamp w.sequence uuid
  | _ => True

theorem padded_inj {n m : Nat} (h : padded n = padded m) : n = m := by
  have hlist := String.ofList_injective h
  have hvalue := congrArg (fun cs => Nat.ofDigitChars 10 cs 0) hlist
  simpa [Nat.ofDigitChars_append, Nat.ofDigitChars_replicate_zero] using hvalue

theorem hyphen_not_mem_padded (n : Nat) : '-' ∉ (padded n).toList := by
  intro h
  simp only [padded, String.toList_ofList, List.mem_append, List.mem_replicate] at h
  rcases h with ⟨-, h⟩ | h
  · cases h
  · exact absurd (Nat.isDigit_of_mem_toDigits (by decide) (by decide) h) (by decide)

/-- A file name gives its sequence number away. -/
theorem fileName_sequence {t t' s s' : Nat} {uuid uuid' : String}
    (h : fileName t s uuid = fileName t' s' uuid') : s = s' := by
  have hlist := congrArg String.toList h
  have hsep : "-".toList = ['-'] := rfl
  simp only [fileName, String.toList_append, hsep, List.append_assoc, List.cons_append,
    List.nil_append] at hlist
  obtain ⟨-, hrest⟩ := Text.split_eq (hyphen_not_mem_padded t) (hyphen_not_mem_padded t') hlist
  obtain ⟨hpadded, -⟩ := Text.split_eq (hyphen_not_mem_padded s) (hyphen_not_mem_padded s') hrest
  exact padded_inj (String.toList_injective hpadded)

theorem Used.mono {sequence sequence' : Nat} {name : String} (h : Used leftover sequence name)
    (hle : sequence ≤ sequence') : Used leftover sequence' name := by
  rcases h with h | ⟨timestamp, n, uuid, hn, hname⟩
  · exact .inl h
  · exact .inr ⟨timestamp, n, uuid, by omega, hname⟩

theorem not_used {sequence timestamp : Nat} {uuid : String}
    (hfresh : ∀ f ∈ leftover, f.name ≠ fileName timestamp sequence uuid) :
    ¬ Used leftover sequence (fileName timestamp sequence uuid) := by
  rintro (⟨f, hf, hname⟩ | ⟨t, n, u, hn, hname⟩)
  · exact hfresh f hf hname
  · have := fileName_sequence hname
    omega

theorem final_of_outcome {status : Nat} (h : outcome (.ok status) ≠ .retry) : Final status := by
  by_cases hok : 200 ≤ status ∧ status ≤ 299
  · exact .inl hok
  · refine .inr ?_
    simpa [outcome, hok] using h

theorem inMemory_setSender (w : World) (sender : Sender) :
    inMemory (w.setSender sender) = w.client.queue.flatMap Command.items ++ carried sender := rfl

theorem inMemory_of_carried (h : carried w.client.sender = []) :
    inMemory w = w.client.queue.flatMap Command.items := by
  rw [inMemory, h, List.append_nil]

/-- Steps that leave the disk and the running `Spool::store` alone. -/
structure Memory (env : Crates) (leftover : Spool.Directory) (w w' : World) : Prop where
  disk : w'.disk = w.disk
  sequence : w'.sequence = w.sequence
  storing : w'.storing = w.storing
  waits : ∀ item, w.client.sender = .storing item → w'.client.sender = w.client.sender
  kept : Kept env w w'
  busy : ∀ file, fileOf w'.client.sender = some file → Used leftover w'.sequence file
  hand : Hand w'
  accepted : ∀ item ∈ w'.accepted, item ∈ w.accepted ∨ Safe env w' item

theorem Call.kept {call : Storing} (h : Call env w call) (hk : Kept env w w')
    (hwaits : ∀ item, w.client.sender = .storing item → w'.client.sender = w.client.sender) :
    Call env w' call where
  waits hcaller := (hwaits _ (h.waits hcaller)).trans (h.waits hcaller)
  writes := by
    have := h.writes
    split <;> simp_all [hk.stored]

theorem Inv.memory (h : Inv env leftover w) (hm : Memory env leftover w w') :
    Inv env leftover w' where
  distinct := by
    rw [hm.disk]
    exact h.distinct
  used := by
    rw [hm.disk, hm.sequence]
    exact h.used
  busy := hm.busy
  hand := hm.hand
  call call hcall := by
    rw [hm.storing] at hcall
    exact (h.call call hcall).kept hm.kept hm.waits
  accepted item hitem := by
    rcases hm.accepted item hitem with hitem | hsafe
    · exact hm.kept.safe (h.accepted item hitem)
    · exact hsafe

/-- Queueing more loses nothing. -/
theorem kept_of_queue (hsender : w'.client.sender = w.client.sender)
    (hqueue : ∀ command ∈ w.client.queue, command ∈ w'.client.queue) (hdisk : w'.disk = w.disk)
    (hended : ∀ origin, Ended w origin → Ended w' origin) : Kept env w w' where
  memory item hitem := by
    refine .inl ?_
    rcases List.mem_append.mp hitem with hitem | hitem
    · obtain ⟨command, hcommand, hitem⟩ := List.mem_flatMap.mp hitem
      exact List.mem_append_left _ (List.mem_flatMap.mpr ⟨command, hqueue command hcommand, hitem⟩)
    · exact List.mem_append_right _ (hsender ▸ hitem)
  disk f hf _ := .inl (hdisk ▸ hf)
  ended := hended

theorem memory_of_queue (h : Inv env leftover w) (hsender : w'.client.sender = w.client.sender)
    (hqueue : ∀ command ∈ w.client.queue, command ∈ w'.client.queue) (hdisk : w'.disk = w.disk)
    (hsequence : w'.sequence = w.sequence) (hstoring : w'.storing = w.storing)
    (hended : ∀ origin, Ended w' origin ↔ Ended w origin)
    (haccepted : ∀ item ∈ w'.accepted, item ∈ w.accepted ∨ Safe env w' item) :
    Memory env leftover w w' where
  disk := hdisk
  sequence := hsequence
  storing := hstoring
  waits _ _ := hsender
  kept := kept_of_queue hsender hqueue hdisk fun origin => (hended origin).mpr
  busy file hfile := by
    rw [hsequence]
    exact h.busy file (hsender ▸ hfile)
  hand := by
    have := h.hand
    simp only [Hand, hsender, hdisk, hended] at this ⊢
    exact this
  accepted := haccepted

theorem inv_capture (h : Inv env leftover w) (event : Event) (uuid timestamp : String)
    (breadcrumbs : List Breadcrumb) :
    Inv env leftover (capture env config w event uuid timestamp breadcrumbs) := by
  unfold capture
  split
  · exact h
  · next prepared _ =>
    dsimp only
    split
    · exact h
    · next client hclient =>
      unfold Process.enqueue at hclient
      split at hclient
      · cases hclient
      · split at hclient
        · next hroom =>
          cases hclient
          rw [if_pos hroom]
          refine h.memory (memory_of_queue h rfl ?_ rfl rfl rfl (fun _ => .rfl) ?_)
          · exact fun command hcommand => List.mem_append_left _ hcommand
          · intro item hitem
            rcases List.mem_cons.mp hitem with rfl | hitem
            · refine .inr (.inl (List.mem_append_left _ (List.mem_flatMap.mpr ?_)))
              exact ⟨.event _, List.mem_append_right _ List.mem_cons_self, List.mem_cons_self⟩
            · exact .inl hitem
        · next hfull =>
          cases hclient
          rw [if_neg hfull]
          exact h.memory (memory_of_queue h rfl (fun _ hc => hc) rfl rfl rfl (fun _ => .rfl)
            fun _ hi => .inl hi)

theorem inv_push (h : Inv env leftover w) {command : Command} (hp : push config w command = some w') :
    Inv env leftover w' := by
  obtain ⟨-, rfl⟩ := push_some hp
  exact h.memory (memory_of_queue h rfl (fun _ hc => List.mem_append_left _ hc) rfl rfl rfl
    (fun _ => .rfl) fun _ hi => .inl hi)

theorem hand_of_fileOf (h : fileOf w.client.sender = none) : Hand w := by
  unfold Hand
  split <;> simp_all [fileOf]

/-- The sender lets go of the file it worked on, if it had one. -/
theorem memory_of_idle (hdisk : w'.disk = w.disk) (hsequence : w'.sequence = w.sequence)
    (hstoring : w'.storing = w.storing) (hbusy : ∀ item, w.client.sender ≠ .storing item)
    (hmemory : ∀ item ∈ inMemory w, Safe env w' item)
    (hended : ∀ origin, Ended w origin → Ended w' origin)
    (hfile : fileOf w'.client.sender = none)
    (haccepted : w'.accepted = w.accepted) : Memory env leftover w w' where
  disk := hdisk
  sequence := hsequence
  storing := hstoring
  waits item hitem := absurd hitem (hbusy item)
  kept := ⟨hmemory, fun f hf _ => .inl (hdisk ▸ hf), hended⟩
  busy file h := by
    rw [hfile] at h
    cases h
  hand := hand_of_fileOf hfile
  accepted item hitem := .inl (haccepted ▸ hitem)

theorem inv_receive (h : Inv env leftover w) {client : Process}
    (hr : w.client.receive = some client) : Inv env leftover { w with client } := by
  have hmemory : ∀ item ∈ inMemory w, item ∈ inMemory { w with client } := by
    intro item hitem
    unfold Process.receive at hr
    split at hr <;> cases hr
    all_goals
      simp_all only [inMemory, carried, Command.items, List.flatMap_cons, List.mem_append,
        List.mem_cons, List.not_mem_nil, or_false, false_or]
    tauto
  have hsender : w.client.sender = .waiting ∧ fileOf client.sender = none := by
    unfold Process.receive at hr
    split at hr <;> cases hr <;> exact ⟨by assumption, rfl⟩
  refine h.memory (memory_of_idle rfl rfl rfl (fun item hitem => ?_)
    (fun item hitem => .inl (hmemory item hitem)) (fun _ he => he) hsender.2 rfl)
  rw [hsender.1] at hitem
  cases hitem

/-- Between `waiting` and `draining` nothing is in the hands of the sender. -/
theorem inv_setSender (h : Inv env leftover w) {sender : Sender}
    (hbusy : ∀ item, w.client.sender ≠ .storing item) (hcarried : carried w.client.sender = [])
    (hfile : fileOf sender = none) : Inv env leftover (w.setSender sender) := by
  refine h.memory (memory_of_idle rfl rfl rfl hbusy (fun item hitem => .inl ?_) (fun _ he => he)
    hfile rfl)
  rw [inMemory_of_carried hcarried] at hitem
  exact List.mem_append_left _ hitem

/-- What the sender does with an answer, and what it leaves alone. -/
structure Answered (w w' : World) (response : Except String Nat) : Prop where
  settle : w.client.sender.settle (outcome response) = some w'.client.sender
  queue : w'.client.queue = w.client.queue
  disk : w'.disk = w.disk
  sequence : w'.sequence = w.sequence
  storing : w'.storing = w.storing
  accepted : w'.accepted = w.accepted
  ended : ∀ origin, Ended w origin → Ended w' origin
  final : outcome response ≠ .retry → ∀ item ∈ w.client.sender.items, Ended w' item.origin

theorem answered {response : Except String Nat} (h : answer w response = some w') :
    Answered w w' response := by
  obtain ⟨sender, hsettle, rfl⟩ := Option.map_eq_some_iff.mp h
  refine ⟨hsettle, rfl, rfl, rfl, rfl, rfl, fun origin h => ?_, fun hfinal item hitem => ?_⟩
  · rcases h with ⟨status, hmem, hfinal⟩ | h
    · refine .inl ⟨status, ?_, hfinal⟩
      cases response with
      | ok => exact List.mem_append_right _ hmem
      | error => exact hmem
    · exact .inr h
  · cases response with
    | error => exact absurd rfl hfinal
    | ok status =>
      refine .inl ⟨status, List.mem_append_left _ ?_, final_of_outcome hfinal⟩
      exact List.mem_map.mpr ⟨item, hitem, rfl⟩

theorem inv_posted (h : Inv env leftover w) {response : Except String Nat} {item : Item}
    (hs : w.client.sender = .posted item) (ha : Answered w w' response) : Inv env leftover w' := by
  have hsettle := ha.settle
  rw [hs] at hsettle
  have hqueue : ∀ i ∈ w.client.queue.flatMap Command.items, Safe env w' i := fun i hi =>
    .inl (List.mem_append_left _ (ha.queue ▸ hi))
  have hbusy : ∀ i, w.client.sender ≠ .storing i := by simp [hs]
  have hsafe : Safe env w' item ∧ fileOf w'.client.sender = none := by
    cases hout : outcome response with
    | retry =>
      simp only [Sender.settle, hout, Option.some.injEq] at hsettle
      exact ⟨.inl (List.mem_append_right _ (hsettle ▸ List.mem_cons_self)), hsettle ▸ rfl⟩
    | delivered | permanentFailure =>
      simp only [Sender.settle, hout, Option.some.injEq] at hsettle
      refine ⟨.inr (.inr (ha.final (by simp [hout]) item ?_)), hsettle ▸ rfl⟩
      simp [hs, Sender.items]
  refine h.memory (memory_of_idle ha.disk ha.sequence ha.storing hbusy (fun i hi => ?_) ha.ended
    hsafe.2 ha.accepted)
  rcases List.mem_append.mp hi with hi | hi
  · exact hqueue i hi
  · rw [hs] at hi
    obtain rfl := List.mem_singleton.mp hi
    exact hsafe.1

theorem inv_reposted (h : Inv env leftover w) {response : Except String Nat} {file : String}
    {item : Item} (hs : w.client.sender = .reposted file item) (ha : Answered w w' response) :
    Inv env leftover w' := by
  have hsettle := ha.settle
  rw [hs] at hsettle
  have hbusy : ∀ i, w.client.sender ≠ .storing i := by simp [hs]
  have hmemory : ∀ i ∈ inMemory w, Safe env w' i := by
    intro i hi
    rw [inMemory, hs, carried, List.append_nil] at hi
    exact .inl (List.mem_append_left _ (ha.queue ▸ hi))
  by_cases hout : outcome response = .retry
  · simp only [Sender.settle, hout, Option.some.injEq] at hsettle
    exact h.memory (memory_of_idle ha.disk ha.sequence ha.storing hbusy hmemory ha.ended
      (hsettle ▸ rfl) ha.accepted)
  · have hremoving : w'.client.sender = .removing file := by
      cases hr : outcome response with
      | retry => exact absurd hr hout
      | delivered | permanentFailure =>
        simp only [Sender.settle, hr, Option.some.injEq] at hsettle
        exact hsettle.symm
    have hended := ha.final hout item (by simp [hs, Sender.items])
    refine h.memory ⟨ha.disk, ha.sequence, ha.storing, fun i hi => absurd hi (hbusy i),
      ⟨hmemory, fun f hf _ => .inl (ha.disk ▸ hf), ha.ended⟩, ?_, ?_, fun i hi => .inl (ha.accepted ▸ hi)⟩
    · intro name hname
      rw [hremoving] at hname
      rw [ha.sequence]
      exact h.busy name (by rw [hs]; exact hname)
    · have hhand := h.hand
      rw [Hand, hs] at hhand
      rw [Hand, hremoving, ha.disk]
      intro f hf hname
      rw [hhand f hf hname]
      exact hended

theorem inv_answer (h : Inv env leftover w) {response : Except String Nat}
    (hw : answer w response = some w') : Inv env leftover w' := by
  have ha := answered hw
  cases hs : w.client.sender with
  | posted item => exact inv_posted h hs ha
  | reposted file item => exact inv_reposted h hs ha
  | waiting | delivering _ | storing _ | draining | redelivering _ _ | removing _ | stopped =>
    have hsettle := ha.settle
    rw [hs] at hsettle
    cases hsettle

theorem inv_transmit (h : Inv env leftover w) (hstep : step env config w .transmit = some w') :
    Inv env leftover w' := by
  obtain ⟨item, posted, sender, hout, hnext, rfl⟩ := step_transmit hstep
  cases hs : w.client.sender with
  | delivering i =>
    rw [hs] at hout
    obtain ⟨rfl, rfl⟩ : i = item ∧ .posted i = posted := by simpa [Sender.outgoing] using hout
    obtain ⟨hcarried, hfile⟩ : carried sender = [i] ∧ fileOf sender = none := by
      rcases hnext with rfl | hsettle
      · exact ⟨rfl, rfl⟩
      · cases hsettle
        exact ⟨rfl, rfl⟩
    refine h.memory (memory_of_idle rfl rfl rfl (by simp [hs]) (fun item hitem => .inl ?_)
      (fun _ he => he) hfile rfl)
    rw [inMemory_setSender, hcarried]
    rw [inMemory, hs] at hitem
    exact hitem
  | redelivering file i =>
    rw [hs] at hout
    obtain ⟨rfl, rfl⟩ : i = item ∧ .reposted file i = posted := by simpa [Sender.outgoing] using hout
    rcases hnext with rfl | hsettle
    · refine h.memory ⟨rfl, rfl, rfl, by simp [hs], ⟨fun item hitem => .inl ?_, fun _ hf _ => .inl hf,
        fun _ he => he⟩, ?_, ?_, fun _ hi => .inl hi⟩
      · rw [inMemory, hs] at hitem
        exact hitem
      · intro name hname
        exact h.busy name (by rw [hs]; exact hname)
      · have hhand := h.hand
        rw [Hand, hs] at hhand
        exact hhand
    · cases hsettle
      exact inv_setSender h (by simp [hs]) (by rw [hs]; rfl) rfl
  | waiting | posted _ | storing _ | draining | reposted _ _ | removing _ | stopped =>
    rw [hs] at hout
    cases hout

/-- What the end of a `Spool::store` leaves alone. -/
theorem kept_finish {caller : Caller} {item : Item} {ok : Bool}
    (hwaits : caller = .sender → w.client.sender = .storing item)
    (hstored : ok = true → Stored env w item) : Kept env w (finish w caller item ok) := by
  cases caller with
  | capture => exact ⟨fun _ hi => .inl hi, fun _ hf _ => .inl hf, fun _ he => he⟩
  | sender =>
    have hended : ∀ origin, Ended w origin → Ended (finish w .sender item ok) origin := by
      rintro origin (h | h | h)
      · exact .inl h
      · exact .inr (.inl h)
      · refine .inr (.inr ?_)
        cases ok with
        | true => exact h
        | false => exact List.mem_cons_of_mem _ h
    refine ⟨fun i hi => ?_, fun _ hf _ => .inl hf, hended⟩
    rcases List.mem_append.mp hi with hi | hi
    · exact .inl (List.mem_append_left _ hi)
    · rw [hwaits rfl] at hi
      obtain rfl := List.mem_singleton.mp hi
      cases ok with
      | true =>
        rcases hstored rfl with hdisk | he
        · exact .inr (.inl hdisk)
        · exact .inr (.inr (hended _ he))
      | false => exact .inr (.inr (.inr (.inr List.mem_cons_self)))

theorem inv_finish (h : Inv env leftover w) {caller : Caller} {item : Item} {ok : Bool}
    (hwaits : caller = .sender → w.client.sender = .storing item)
    (hstored : ok = true → Stored env w item) : Inv env leftover (finish w caller item ok) := by
  have hk := kept_finish hwaits hstored
  cases caller with
  | capture =>
    refine ⟨h.distinct, h.used, h.busy, h.hand, fun call hcall => (nomatch hcall), fun i hi => ?_⟩
    have hi : i ∈ if ok then item :: w.accepted else w.accepted := hi
    split at hi
    · next hok =>
      rcases List.mem_cons.mp hi with rfl | hi
      · exact .inr (hk.stored (hstored hok))
      · exact hk.safe (h.accepted i hi)
    · exact hk.safe (h.accepted i hi)
  | sender =>
    exact ⟨h.distinct, h.used, fun file hfile => (nomatch hfile), trivial,
      fun call hcall => (nomatch hcall), fun i hi => hk.safe (h.accepted i hi)⟩

theorem inv_lock (h : Inv env leftover w) {caller : Caller} {item : Item}
    (hwaits : caller = .sender → w.client.sender = .storing item)
    (hl : lock env config w caller item = some w') : Inv env leftover w' := by
  obtain ⟨-, ⟨bytes, hencode, rfl⟩ | ⟨-, rfl⟩⟩ := lock_some hl
  · refine ⟨h.distinct, h.used, h.busy, h.hand, fun call hcall => ?_, h.accepted⟩
    cases hcall
    exact ⟨hwaits, Spool.encode_ok hencode⟩
  · exact inv_finish h hwaits (by simp)

theorem inv_spilling (h : Inv env leftover w) (spilling : List Item) :
    Inv env leftover { w with client := { w.client with spilling } } :=
  h.memory (memory_of_queue h rfl (fun _ hc => hc) rfl rfl rfl (fun _ => .rfl) fun _ hi => .inl hi)

/-- A higher sequence number makes no name unused. -/
theorem inv_sequence (h : Inv env leftover w) : Inv env leftover { w with sequence := w.sequence + 1 } :=
  { h with
    used := fun f hf => (h.used f hf).mono (Nat.le_succ _)
    busy := fun file hfile => (h.busy file hfile).mono (Nat.le_succ _)
    call := fun call hcall => ⟨(h.call call hcall).waits, (h.call call hcall).writes⟩ }

/-- A file under a fresh name takes nothing away. -/
theorem inv_rename (h : Inv env leftover w) {caller : Caller} {item : Item} {bytes : Bytes}
    {timestamp : Nat} {uuid : String} (hcall : Call env w ⟨caller, item, .writing bytes⟩)
    (hfresh : ∀ f ∈ leftover, f.name ≠ fileName timestamp w.sequence uuid) :
    Inv env leftover { w with
      sequence := w.sequence + 1
      disk := Spool.rename ⟨fileName timestamp w.sequence uuid, bytes, item.origin⟩ w.disk
      storing := some ⟨caller, item, .bounding⟩ } := by
  have hnew := not_used hfresh
  have hname : ∀ f ∈ w.disk, f.name ≠ fileName timestamp w.sequence uuid := fun f hf hname =>
    hnew (hname ▸ h.used f hf)
  have hold : ∀ {f}, f ∈ w.disk →
      f ∈ Spool.rename ⟨fileName timestamp w.sequence uuid, bytes, item.origin⟩ w.disk := fun hf =>
    Spool.mem_rename_iff.mpr (.inl ⟨hf, hname _ hf⟩)
  have hk : Kept env w { w with
      sequence := w.sequence + 1
      disk := Spool.rename ⟨fileName timestamp w.sequence uuid, bytes, item.origin⟩ w.disk
      storing := some ⟨caller, item, .bounding⟩ } :=
    ⟨fun _ hi => .inl hi, fun _ hf _ => .inl (hold hf), fun _ he => he⟩
  refine ⟨?_, ?_, fun file hfile => (h.busy file hfile).mono (Nat.le_succ _), ?_, ?_,
    fun i hi => hk.safe (h.accepted i hi)⟩
  · intro f hf g hg hfg
    rcases Spool.mem_rename_iff.mp hf with ⟨hf, hfn⟩ | rfl <;>
      rcases Spool.mem_rename_iff.mp hg with ⟨hg, hgn⟩ | rfl
    · exact h.distinct f hf g hg hfg
    · exact absurd hfg hfn
    · exact absurd hfg.symm hgn
    · rfl
  · intro f hf
    rcases Spool.mem_rename_iff.mp hf with ⟨hf, -⟩ | rfl
    · exact (h.used f hf).mono (Nat.le_succ _)
    · exact .inr ⟨timestamp, w.sequence, uuid, Nat.lt_succ_self _, rfl⟩
  · have hhand := h.hand
    have hbusy := h.busy
    unfold Hand at hhand ⊢
    dsimp only
    split <;> simp_all only [fileOf, Option.some.injEq, forall_eq']
    all_goals
      intro f hf hfile
      rcases Spool.mem_rename_iff.mp hf with ⟨hf, -⟩ | rfl
      · exact hhand f hf hfile
      · subst hfile
        exact absurd hbusy hnew
  · intro call hc
    cases hc
    exact ⟨hcall.waits, .inl ⟨_, Spool.mem_rename_iff.mpr (.inr rfl), rfl, hcall.writes⟩⟩

theorem inv_place (h : Inv env leftover w) {served : Bool} {timestamp : Nat} {uuid : String}
    (hfresh : ∀ f ∈ leftover, f.name ≠ fileName timestamp w.sequence uuid)
    (hstep : step env config w (.place served timestamp uuid) = some w') : Inv env leftover w' := by
  obtain ⟨caller, item, bytes, hstoring, hplaced⟩ := step_place hstep
  have hcall := h.call _ hstoring
  obtain ⟨-, rfl⟩ | ⟨-, rfl⟩ := hplaced
  · exact inv_rename h hcall hfresh
  · exact inv_finish (inv_sequence h) hcall.waits (by simp)

theorem inv_list (h : Inv env leftover w) {served : Bool}
    (hstep : step env config w (.list served) = some w') : Inv env leftover w' := by
  obtain ⟨caller, item, hstoring, hlisted⟩ := step_list hstep
  have hcall := h.call _ hstoring
  obtain ⟨-, rfl⟩ | ⟨-, rfl⟩ := hlisted
  · refine { h with call := fun call hc => ?_ }
    cases hc
    exact ⟨hcall.waits, hcall.writes⟩
  · exact inv_finish h hcall.waits (by simp)

theorem mem_originsOf {name : String} {f : Spool.File} (hf : f ∈ w.disk) (hname : f.name = name) :
    f.origin ∈ originsOf name w.disk :=
  List.mem_map.mpr ⟨f, List.mem_filter.mpr ⟨hf, by simpa using hname⟩, rfl⟩

/-- A deleted file is on record. -/
theorem kept_evict (name : String) (storing : Option Storing) :
    Kept env w { w with
      disk := Spool.remove name w.disk
      evicted := originsOf name w.disk ++ w.evicted
      storing } := by
  refine ⟨fun _ hi => .inl hi, fun f hf _ => ?_, fun origin he => ?_⟩
  · by_cases hname : f.name = name
    · exact .inr (.inr (.inl (List.mem_append_left _ (mem_originsOf hf hname))))
    · exact .inl (Spool.mem_remove_iff.mpr ⟨hf, hname⟩)
  · rcases he with he | he | he
    · exact .inl he
    · exact .inr (.inl (List.mem_append_right _ he))
    · exact .inr (.inr he)

/-- The hand of the sender stays as good when files go and ends come. -/
theorem Hand.mono (h : Hand w) (hsender : w'.client.sender = w.client.sender)
    (hdisk : ∀ f ∈ w'.disk, f ∈ w.disk) (hended : ∀ origin, Ended w origin → Ended w' origin) :
    Hand w' := by
  unfold Hand at h ⊢
  rw [hsender]
  cases hs : w.client.sender with
  | redelivering file item | reposted file item =>
    rw [hs] at h
    exact fun f hf hname => h f (hdisk f hf) hname
  | removing file =>
    rw [hs] at h
    exact fun f hf hname => hended _ (h f (hdisk f hf) hname)
  | waiting | delivering _ | posted _ | storing _ | draining | stopped => trivial

theorem inv_evict (h : Inv env leftover w) {served : Bool}
    (hstep : step env config w (.evict served) = some w') : Inv env leftover w' := by
  obtain ⟨caller, item, total, files, hstoring, rfl⟩ := step_evict hstep
  have hcall := h.call _ hstoring
  obtain ⟨-, hevict⟩ | ⟨f, rest, rfl, -, ⟨-, hevict⟩ | ⟨-, hevict⟩⟩ :=
    evict_cases config w caller item served total files
  · rw [hevict]
    exact inv_finish h hcall.waits fun _ => hcall.writes
  · rw [hevict]
    have hk : Kept env w _ := kept_evict f.name
      (some ⟨caller, item, .evicting (total - f.bytes.length) rest⟩)
    have hsub : ∀ g ∈ Spool.remove f.name w.disk, g ∈ w.disk := fun g => Spool.mem_remove
    refine ⟨fun g hg g' hg' => h.distinct g (hsub g hg) g' (hsub g' hg'),
      fun g hg => h.used g (hsub g hg), h.busy, h.hand.mono rfl hsub hk.ended, ?_,
      fun i hi => hk.safe (h.accepted i hi)⟩
    intro call hc
    cases hc
    exact ⟨hcall.waits, hk.stored hcall.writes⟩
  · rw [hevict]
    exact inv_finish h hcall.waits (by simp)

theorem inv_pick (hread : ReadsBack env) (h : Inv env leftover w) {reads : Nat}
    (hstep : step env config w (.pick reads) = some w') : Inv env leftover w' := by
  obtain ⟨hsender, hstoring, disk, hpicked⟩ := step_pick hstep
  have hpaths : ∀ g ∈ (Spool.paths w.disk).take reads, g ∈ w.disk := fun g hg =>
    Spool.mem_paths.mp (List.mem_of_mem_take hg)
  have hmemory : inMemory w = w.client.queue.flatMap Command.items :=
    inMemory_of_carried (by rw [hsender]; rfl)
  -- whatever the search deletes on its way is no encoding of an event
  have hsearch : ∀ {found},
      Spool.oldestLoop env ((Spool.paths w.disk).take reads) w.disk = (disk, found) →
      (∀ f ∈ disk, f ∈ w.disk) ∧ ∀ sender, Kept env w ({ w with disk }.setSender sender) := by
    intro found hpick
    refine ⟨(Spool.oldestLoop_spec hpick).1, fun sender =>
      ⟨fun i hi => .inl (List.mem_append_left _ (hmemory ▸ hi)), ?_, fun _ he => he⟩⟩
    rintro f hf ⟨event, hbytes⟩
    exact .inl (Spool.oldestLoop_keeps hpick
      (fun f hf g hg => h.distinct f hf g (hpaths g hg)) hf (hread event _ hbytes))
  have hcall : ∀ sender, ∀ call, ({ w with disk }.setSender sender).storing = some call →
      Call env ({ w with disk }.setSender sender) call := by
    intro sender call hc
    exact absurd (hstoring.symm.trans hc) nofun
  obtain ⟨hpick, rfl⟩ | ⟨file, event, hpick, rfl⟩ := hpicked
  · obtain ⟨hsub, hk⟩ := hsearch hpick
    exact ⟨fun f hf g hg => h.distinct f (hsub f hf) g (hsub g hg),
      fun f hf => h.used f (hsub f hf), fun _ hfile => (nomatch hfile), trivial, hcall _,
      fun i hi => (hk _).safe (h.accepted i hi)⟩
  · obtain ⟨hsub, hk⟩ := hsearch hpick
    have hfile := hpaths file ((Spool.oldestLoop_spec hpick).2 file event rfl).1
    refine ⟨fun f hf g hg => h.distinct f (hsub f hf) g (hsub g hg),
      fun f hf => h.used f (hsub f hf), ?_, ?_, hcall _,
      fun i hi => (hk _).safe (h.accepted i hi)⟩
    · rintro name ⟨rfl⟩
      exact h.used file hfile
    · intro f hf hname
      rw [h.distinct f (hsub f hf) file hfile hname]

theorem inv_remove (h : Inv env leftover w) {served : Bool}
    (hstep : step env config w (.remove served) = some w') : Inv env leftover w' := by
  obtain ⟨file, hsender, rfl⟩ := step_remove hstep
  have hhand := h.hand
  rw [Hand, hsender] at hhand
  have hsub : ∀ f ∈ (if served then Spool.remove file w.disk else w.disk), f ∈ w.disk := by
    intro f hf
    split at hf
    · exact Spool.mem_remove hf
    · exact hf
  have hk : Kept env w ({ w with
      disk := if served then Spool.remove file w.disk else w.disk }.setSender .draining) := by
    refine ⟨fun i hi => .inl (List.mem_append_left _ ?_), fun f hf _ => ?_, fun _ he => he⟩
    · rw [inMemory_of_carried (by rw [hsender]; rfl)] at hi
      exact hi
    · by_cases hname : f.name = file
      · exact .inr (hhand f hf hname)
      · refine .inl ?_
        change f ∈ if served then Spool.remove file w.disk else w.disk
        split
        · exact Spool.mem_remove_iff.mpr ⟨hf, hname⟩
        · exact hf
  refine ⟨fun f hf g hg => h.distinct f (hsub f hf) g (hsub g hg), fun f hf => h.used f (hsub f hf),
    fun _ hfile => (nomatch hfile), trivial, fun call hc => ?_, fun i hi => hk.safe (h.accepted i hi)⟩
  refine (h.call call hc).kept hk fun item hitem => ?_
  rw [hsender] at hitem
  cases hitem

theorem inv_step (hread : ReadsBack env) {label : Label} (h : Inv env leftover w)
    (hfresh : FreshName leftover w label) (hstep : step env config w label = some w') :
    Inv env leftover w' := by
  cases label with
  | capture event uuid timestamp breadcrumbs =>
    obtain ⟨-, rfl⟩ := step_capture hstep
    exact inv_capture h event uuid timestamp breadcrumbs
  | flush => exact inv_push h (step_flush hstep).2
  | drop =>
    obtain ⟨-, rfl⟩ := step_drop hstep
    exact h.memory (memory_of_queue h rfl (fun _ hc => hc) rfl rfl rfl (fun _ => .rfl)
      fun _ hi => .inl hi)
  | shutdown =>
    obtain ⟨-, pushed, hpush, rfl⟩ := step_shutdown hstep
    have h := inv_push h hpush
    exact h.memory (memory_of_queue h rfl (fun _ hc => hc) rfl rfl rfl (fun _ => .rfl)
      fun _ hi => .inl hi)
  | receive =>
    obtain ⟨client, hr, rfl⟩ := step_receive hstep
    exact inv_receive h hr
  | timeout =>
    obtain ⟨hsender, -, rfl⟩ := step_timeout hstep
    exact inv_setSender h (by simp [hsender]) (by rw [hsender]; rfl) rfl
  | transmit => exact inv_transmit h hstep
  | answer response => exact inv_answer h hstep
  | lockCapture index =>
    obtain ⟨item, -, hlock⟩ := step_lockCapture hstep
    exact inv_lock (inv_spilling h _) (by simp) hlock
  | lockSender =>
    obtain ⟨item, hsender, hlock⟩ := step_lockSender hstep
    exact inv_lock h (fun _ => hsender) hlock
  | place served timestamp uuid => exact inv_place h hfresh hstep
  | list served => exact inv_list h hstep
  | evict served => exact inv_evict h hstep
  | pick reads => exact inv_pick hread h hstep
  | pause =>
    obtain ⟨hsender, rfl⟩ := step_pause hstep
    exact inv_setSender h (by simp [hsender]) (by rw [hsender]; rfl) rfl
  | remove served => exact inv_remove h hstep

theorem inv_start (hdistinct : (leftover.map Spool.File.name).Nodup) (sequence : Nat) :
    Inv env leftover (World.start leftover sequence) where
  distinct f hf g hg hname := List.inj_on_of_nodup_map hdistinct hf hg hname
  used f hf := .inl ⟨f, hf, rfl⟩
  busy file hfile := by cases hfile
  hand := trivial
  call call hcall := by cases hcall
  accepted item hitem := by cases hitem

end Zbierak.Conservation
