import Zbierak.EndToEnd

/-!
# Every capture counts at most once

The first request that the service accepts for a capture leaves a raw event
under its producer id for good. The id survives the queue, the spool and the
wire, so every later request of the same capture meets that row and adds
nothing.
-/
namespace Zbierak.EndToEnd

open Server Sdk

theorem countOf_row {db : Db} {r : Int × Issue} (h : r ∈ db.issues.rows) :
    countOf db r.1 = r.2.eventCount := by
  have hget : db.issues.get? r.1 = some r.2 := db.issues.get?_eq_some.mpr h
  simp [countOf, hget]

theorem counted_same {before after : Db} (h : after.issues = before.issues) :
    counted before after = [] := by
  rw [counted, List.map_eq_nil_iff, List.filter_eq_nil_iff, h]
  intro r hr
  simp [countOf_row hr]

theorem counted_update {before after : Db} {id : Int} {i : Issue} {f : Issue → Issue}
    (hi : before.issues.get? id = some i)
    (hafter : after.issues = before.issues.update (fun j _ => j = id) f)
    (hf : ∀ i, (f i).eventCount = i.eventCount + 1) : counted before after = [(id, 1)] := by
  have hkey := before.issues.select_key hi
  unfold Table.select at hkey
  have hmoved : (before.issues.rows.filter fun r =>
      decide ((if r.1 = id then f r.2 else r.2).eventCount ≠ countOf before r.1)) = [(id, i)] := by
    rw [← hkey]
    refine List.filter_congr fun r hr => ?_
    rw [countOf_row hr]
    by_cases h : r.1 = id <;> simp [h, hf]
  have hcount : countOf before id = i.eventCount := by simp [countOf, hi]
  simp only [counted, hafter, Table.rows_update, List.filter_map, Function.comp_def,
    decide_eq_true_eq, List.map_map, hmoved]
  simp [hf, hcount]

theorem counted_insert {before after : Db} {i : Issue}
    (hafter : after.issues = before.issues.insert i) (hi : i.eventCount = 1) :
    counted before after = [(before.issues.nextId, 1)] := by
  have hold : before.issues.rows.filter (fun r => r.2.eventCount ≠ countOf before r.1) = [] := by
    rw [List.filter_eq_nil_iff]
    intro r hr
    simp [countOf_row hr]
  have hnew : countOf before before.issues.nextId = 0 := by simp [countOf]
  simp only [counted, hafter, Table.rows_insert, List.filter_append, hold]
  simp [hnew, hi]

/-- An acceptance counts for one issue, once. -/
theorem counted_accepted {env : Crates} {publicUrl : Option String} {req : Ingest.IngestProject}
    {body : Bytes} {p : Ingest.Prepared} {storageId : String} {now : Int} {db : Db} :
    counted db (Ingest.accepted env publicUrl req body p storageId now db) =
      [(Ingest.issueOf req p db.issues, 1)] := by
  rcases Ingest.upsert_cases req p now db.issues with ⟨i, hi, -, -, -, hafter⟩ | ⟨-, hof, -, hafter⟩
  · exact counted_update hi hafter fun _ => rfl
  · rw [hof]
    exact counted_insert hafter rfl

/-- A contribution of nothing. -/
structure Contribution.Nothing (k : Contribution) : Prop where
  rows : k.rows = []
  counts : k.counts = []
  queued : k.queued = []

/-- One event, counted for one issue, with at most one batch of notifications. -/
structure Contribution.OneEvent (k : Contribution) : Prop where
  rows : k.rows.length = 1
  counts : ∃ issueId, k.counts = [(issueId, 1)]
  queued : k.queued = [] ∨ ∃ db projectId kind, k.queued = Notifications.oneEach db projectId kind

theorem contribution_same {origin : Nat} {before after : Db} (hissues : after.issues = before.issues)
    (hevents : after.events = before.events) (houtbox : after.outbox = before.outbox) :
    (contribution origin before after).Nothing where
  rows := by simp [contribution, hevents]
  counts := counted_same hissues
  queued := by simp [contribution, Notifications.targets, Notifications.queued, houtbox]

theorem contribution_accepted {origin : Nat} {env : Crates} {publicUrl : Option String}
    {req : Ingest.IngestProject} {body : Bytes} {p : Ingest.Prepared} {storageId : String} {now : Int}
    {db : Db} : (contribution origin db
      (Ingest.accepted env publicUrl req body p storageId now db)).OneEvent where
  rows := by simp [contribution, Ingest.accepted]
  counts := ⟨_, counted_accepted⟩
  queued := by
    cases hkind : Ingest.kindOf req p db.issues with
    | none => exact .inl (by simp [contribution, Notifications.targets, Notifications.queued,
        Ingest.accepted, hkind])
    | some kind => exact .inr ⟨db, req.projectId, kind, by simp [contribution, Notifications.targets,
        Notifications.queued, Notifications.oneEach, Ingest.accepted, hkind, Ingest.batch]⟩

/-- Ingesting contributes nothing, or accepts an event whose producer id was
free and is taken from then on. -/
theorem contribution_ingest (d : Deployment) (origin : Nat) (now : Int) (db : Db)
    (req : Ingest.IngestProject) (body : Bytes) (storageId : String) :
    let after := (exec d.setup now db (.request (.ingest req body storageId))).2
    (contribution origin db after).Nothing ∨
    ((contribution origin db after).OneEvent ∧ ∃ p, Ingest.prepare d.setup.env body = .ok p ∧
      Ingest.findRaw db req.projectId p.eventId = none ∧
      (Ingest.findRaw after req.projectId p.eventId).isSome = true) := by
  rcases exec_ingest d.setup now db req body storageId with
    ⟨e, h⟩ | ⟨response, -, h⟩ | ⟨p, hp, hraw, -, -, h⟩
  · simp only [h]
    exact .inl (contribution_same rfl rfl rfl)
  · simp only [h]
    exact .inl (contribution_same rfl rfl rfl)
  · simp only [h]
    exact .inr ⟨contribution_accepted, p, hp, hraw,
      Idempotence.findRaw_isSome Idempotence.stored_of_accepted⟩

/-- All that the requests of one capture contributed. -/
def total (ledger : List Contribution) (origin : Nat) : Contribution :=
  let charged := ledger.filter fun k => k.origin = origin
  ⟨origin, charged.flatMap Contribution.rows, charged.flatMap Contribution.counts,
    charged.flatMap Contribution.queued⟩

theorem total_append_other {ledger : List Contribution} {k : Contribution} {origin : Nat}
    (h : k.origin ≠ origin ∨ k.Nothing) : total (ledger ++ [k]) origin = total ledger origin := by
  by_cases hk : k.origin = origin
  · have hnothing := h.resolve_left (not_not.mpr hk)
    simp [total, List.filter_append, hk, hnothing.rows, hnothing.counts, hnothing.queued]
  · simp [total, List.filter_append, hk]

/-- The first request that contributes anything is all that is charged. -/
theorem total_append_first {ledger : List Contribution} {k : Contribution}
    (h : (total ledger k.origin).Nothing) : total (ledger ++ [k]) k.origin = k := by
  obtain ⟨hrows, hcounts, hqueued⟩ := h
  dsimp only [total] at hrows hcounts hqueued
  simp [total, List.filter_append, hrows, hcounts, hqueued]

/-- The capture of this number has this event id. -/
def Traced (captured : List Event) (origin : Nat) (eventId : String) : Prop :=
  ∃ e, captured[origin]? = some e ∧ e.eventId = eventId

/-- The bytes are an event with the event id of the capture. -/
def Carries (env : Crates) (captured : List Event) (origin : Nat) (body : Bytes) : Prop :=
  ∃ e, env.eventToVec e = .ok body ∧ Traced captured origin e.eventId

theorem Traced.unique {captured : List Event} {origin : Nat} {a b : String}
    (ha : Traced captured origin a) (hb : Traced captured origin b) : a = b := by
  obtain ⟨e, he, rfl⟩ := ha
  obtain ⟨e', he', rfl⟩ := hb
  obtain rfl : e = e' := by simpa [he] using he'
  rfl

theorem Traced.append {captured : List Event} {origin : Nat} {eventId : String}
    (h : Traced captured origin eventId) (e : Event) : Traced (captured ++ [e]) origin eventId := by
  obtain ⟨e', he', hid⟩ := h
  refine ⟨e', ?_, hid⟩
  rw [List.getElem?_append_left (List.getElem?_eq_some_iff.mp he').1, he']

theorem Carries.append {env : Crates} {captured : List Event} {origin : Nat} {body : Bytes}
    (h : Carries env captured origin body) (e : Event) :
    Carries env (captured ++ [e]) origin body := by
  obtain ⟨e', hbody, htraced⟩ := h
  exact ⟨e', hbody, htraced.append e⟩

/-- The event id of the capture is taken in the project that the slug names. -/
def Taken (slug : String) (w : World) (origin : Nat) : Prop :=
  ∃ projectId eventId, Auth.Names w.db slug projectId ∧ Traced w.captured origin eventId ∧
    (Ingest.findRaw w.db projectId eventId).isSome = true

/-- Nothing is charged to the capture, or what one request contributed is: one
event, whose id is taken. -/
def Once (slug : String) (w : World) (origin : Nat) : Prop :=
  (total w.ledger origin).Nothing ∨
    (total w.ledger origin ∈ w.ledger ∧ (total w.ledger origin).OneEvent ∧ Taken slug w origin)

structure Inv (d : Deployment) (w : World) : Prop where
  keys : w.db.UniqueKeys
  memory : ∀ c, ∀ i ∈ (w.clients c).items, Traced w.captured i.origin i.event.eventId
  disk : ∀ dir, ∀ f ∈ w.disk dir, Carries d.setup.env w.captured f.origin f.bytes
  network : ∀ m ∈ w.network, Carries d.setup.env w.captured m.origin m.body
  admitted : ∀ a ∈ w.admitted, Carries d.setup.env w.captured a.post.origin a.post.body ∧
    Auth.Names w.db d.slug a.req.projectId
  ledger : ∀ k ∈ w.ledger, ∃ e, w.captured[k.origin]? = some e
  once : ∀ origin, Once d.slug w origin

/-- What the encoding of events must keep: reading an encoded event, from the
spool or from a request, gives its event id back. -/
structure KeepsEventId (env : Crates) : Prop where
  spool : ∀ e bytes e', env.eventToVec e = .ok bytes → env.eventFromSlice bytes = .ok e' →
    e'.eventId = e.eventId
  request : ∀ e bytes value e', env.eventToVec e = .ok bytes → env.valueFromSlice bytes = .ok value →
    env.eventDeserialize value = .ok e' → e'.eventId = e.eventId

theorem KeepsEventId.prepare {env : Crates} (h : KeepsEventId env) {captured : List Event}
    {origin : Nat} {body : Bytes} (hbody : Carries env captured origin body) {p : Ingest.Prepared}
    (hp : Ingest.prepare env body = .ok p) : Traced captured origin p.eventId := by
  obtain ⟨e, hvec, htraced⟩ := hbody
  unfold Ingest.prepare at hp
  split at hp
  · cases hp
  · next value hvalue =>
    split at hp
    · cases hp
    · next e' he' =>
      have hid := h.request e body value e' hvec hvalue he'
      split at hp
      · cases hp
      · split at hp
        · cases hp
        · cases hp
          simpa only [hid] using htraced

section Frame

variable {d : Deployment} {w : World}

theorem Inv.client (h : Inv d w) (c : Nat) {process : Process}
    (hitems : ∀ i ∈ process.items, Traced w.captured i.origin i.event.eventId) :
    Inv d { w with clients := Function.update w.clients c process } where
  keys := h.keys
  memory c' i hi := by
    by_cases hc : c' = c
    · subst hc
      simp only [Function.update_self] at hi
      exact hitems i hi
    · simp only [Function.update_of_ne hc] at hi
      exact h.memory c' i hi
  disk := h.disk
  network := h.network
  admitted := h.admitted
  ledger := h.ledger
  once := h.once

theorem Inv.setSender (h : Inv d w) (c : Nat) {sender : Sender}
    (hitems : ∀ i ∈ sender.items, Traced w.captured i.origin i.event.eventId) :
    Inv d (w.setSender c sender) := by
  refine h.client c fun i hi => ?_
  rcases List.mem_append.mp hi with hi | hi
  · exact h.memory c i (List.mem_append_left _ hi)
  · exact hitems i hi

theorem Inv.setDisk (h : Inv d w) (dir : String) {files : Spool.Directory}
    (hfiles : ∀ f ∈ files, Carries d.setup.env w.captured f.origin f.bytes) :
    Inv d (w.setDisk dir files) where
  keys := h.keys
  memory := h.memory
  disk dir' f hf := by
    by_cases hdir : dir' = dir
    · subst hdir
      simp only [World.setDisk, Function.update_self] at hf
      exact hfiles f hf
    · simp only [World.setDisk, Function.update_of_ne hdir] at hf
      exact h.disk dir' f hf
  network := h.network
  admitted := h.admitted
  ledger := h.ledger
  once := h.once

theorem Inv.setNetwork (h : Inv d w) {network : List Post}
    (hposts : ∀ m ∈ network, Carries d.setup.env w.captured m.origin m.body) :
    Inv d { w with network } where
  keys := h.keys
  memory := h.memory
  disk := h.disk
  network := hposts
  admitted := h.admitted
  ledger := h.ledger
  once := h.once

theorem Inv.setAdmitted (h : Inv d w) {admitted : List Admitted}
    (hrequests : ∀ a ∈ admitted, Carries d.setup.env w.captured a.post.origin a.post.body ∧
      Auth.Names w.db d.slug a.req.projectId) : Inv d { w with admitted } where
  keys := h.keys
  memory := h.memory
  disk := h.disk
  network := h.network
  admitted := hrequests
  ledger := h.ledger
  once := h.once

theorem Inv.network_erase (h : Inv d w) (post : Post) :
    Inv d { w with network := w.network.erase post } :=
  h.setNetwork fun m hm => h.network m (List.mem_of_mem_erase hm)

/-- Taking one more event leaves the numbers of the others. -/
theorem Inv.captured_append (h : Inv d w) (e : Event) :
    Inv d { w with captured := w.captured ++ [e] } where
  keys := h.keys
  memory c i hi := (h.memory c i hi).append e
  disk dir f hf := (h.disk dir f hf).append e
  network m hm := (h.network m hm).append e
  admitted a ha := ⟨(h.admitted a ha).1.append e, (h.admitted a ha).2⟩
  ledger k hk := by
    obtain ⟨e', he'⟩ := h.ledger k hk
    exact ⟨e', by rw [List.getElem?_append_left (List.getElem?_eq_some_iff.mp he').1, he']⟩
  once origin := by
    rcases h.once origin with hnone | ⟨hmem, hone, projectId, eventId, hnames, htraced, htaken⟩
    · exact .inl hnone
    · exact .inr ⟨hmem, hone, projectId, eventId, hnames, htraced.append e, htaken⟩

/-- No operation of the service gives a slug or a producer id away. -/
theorem Inv.exec (h : Inv d w) (now : Int) (op : Op) :
    Inv d { w with db := (Server.exec d.setup now w.db op).2 } where
  keys := (Directory.exec_directory d.setup now w.db op).uniqueKeys h.keys
  memory := h.memory
  disk := h.disk
  network := h.network
  admitted a ha :=
    ⟨(h.admitted a ha).1, (Directory.exec_directory d.setup now w.db op).names (h.admitted a ha).2⟩
  ledger := h.ledger
  once origin := by
    rcases h.once origin with hnone | ⟨hmem, hone, projectId, eventId, hnames, htraced, htaken⟩
    · exact .inl hnone
    · exact .inr ⟨hmem, hone, projectId, eventId,
        (Directory.exec_directory d.setup now w.db op).names hnames, htraced,
        (Idempotence.exec_grows d.setup now w.db op).findRaw htaken⟩

/-- A charge for nothing, or the first one for a capture whose id is taken. -/
theorem Inv.charge (h : Inv d w) {k : Contribution}
    (horigin : ∃ e, w.captured[k.origin]? = some e)
    (hk : k.Nothing ∨
      (k.OneEvent ∧ (total w.ledger k.origin).Nothing ∧ Taken d.slug w k.origin)) :
    Inv d { w with ledger := w.ledger ++ [k] } where
  keys := h.keys
  memory := h.memory
  disk := h.disk
  network := h.network
  admitted := h.admitted
  ledger k' hk' := by
    rcases List.mem_append.mp hk' with hk' | hk'
    · exact h.ledger k' hk'
    · obtain rfl := List.mem_singleton.mp hk'
      exact horigin
  once origin := by
    have hother : k.origin ≠ origin ∨ k.Nothing →
        Once d.slug { w with ledger := w.ledger ++ [k] } origin := by
      intro hsame
      have htotal : total (w.ledger ++ [k]) origin = total w.ledger origin := total_append_other hsame
      rcases h.once origin with hnone | ⟨hmem, hone, htaken⟩
      · exact .inl (by rwa [htotal])
      · exact .inr ⟨by rw [htotal]; exact List.mem_append_left _ hmem, by rwa [htotal], htaken⟩
    rcases hk with hnothing | ⟨hone, hfirst, htaken⟩
    · exact hother (.inr hnothing)
    · by_cases horigin : k.origin = origin
      · subst horigin
        have htotal := total_append_first hfirst
        exact .inr ⟨by simp [htotal], by rwa [htotal], htaken⟩
      · exact hother (.inl horigin)

theorem Inv.store (h : Inv d w) (c : Nat) (name : String) {item : Item}
    (interruption : Option Spool.Interruption)
    (hitem : Traced w.captured item.origin item.event.eventId) :
    Inv d (spool d w c name item interruption) := by
  refine h.setDisk _ fun f hf => ?_
  rcases Spool.mem_store hf with hold | ⟨horigin, hvec⟩
  · exact h.disk _ f hold
  · rw [horigin]
    exact ⟨item.event, hvec, hitem⟩

theorem Inv.capture (h : Inv d w) (c : Nat) (event : Event) (uuid timestamp : String)
    (breadcrumbs : List Breadcrumb) : Inv d (capture d w c event uuid timestamp breadcrumbs) := by
  unfold EndToEnd.capture
  dsimp only
  split
  · exact h
  · next prepared _ =>
    split
    · exact h
    · next process henqueue =>
      refine (h.captured_append prepared).client c fun i hi => ?_
      rcases items_enqueue henqueue i hi with hi | rfl
      · exact (h.memory c i hi).append prepared
      · exact ⟨prepared, List.getElem?_concat_length, rfl⟩

/-- The sender reads the event of a file that is in its spool. -/
theorem Inv.pick (hcodec : KeepsEventId d.setup.env) (h : Inv d w) (c : Nat) {files : Spool.Directory}
    {found : Option (Spool.File × Event)}
    (hread : Spool.oldest d.setup.env (w.disk (d.config c).spoolDir) = (files, found)) :
    Inv d ((w.setDisk (d.config c).spoolDir files).setSender c (redeliver found)) := by
  obtain ⟨hfiles, hfound⟩ := Spool.oldest_spec hread
  refine (h.setDisk _ fun f hf => h.disk _ f (hfiles f hf)).setSender c fun i hi => ?_
  cases found with
  | none => cases hi
  | some r =>
    obtain ⟨hmem, hslice⟩ := hfound r.1 r.2 rfl
    obtain rfl := List.mem_singleton.mp hi
    obtain ⟨e, hvec, htraced⟩ := h.disk _ r.1 hmem
    simpa only [hcodec.spool e r.1.bytes r.2 hvec hslice, World.setDisk] using htraced

/-- A request is charged for one event only if nothing was charged before: a
charge leaves the producer id taken. -/
theorem Inv.ingest (hcodec : KeepsEventId d.setup.env) (h : Inv d w) {a : Admitted}
    (ha : a ∈ w.admitted) (storageId : String) (now : Int) :
    let db := (Server.exec d.setup now w.db (.request (.ingest a.req a.post.body storageId))).2
    Inv d { w with
      db
      admitted := w.admitted.erase a
      ledger := w.ledger ++ [contribution a.post.origin w.db db] } := by
  intro db
  obtain ⟨hbody, hnames⟩ := h.admitted a ha
  have hexec : Inv d { w with db } := h.exec now (.request (.ingest a.req a.post.body storageId))
  have herase : Inv d { w with db, admitted := w.admitted.erase a } :=
    hexec.setAdmitted fun b hb => hexec.admitted b (List.mem_of_mem_erase hb)
  refine herase.charge ?_ ?_
  · obtain ⟨e, -, e', he', -⟩ := hbody
    exact ⟨e', he'⟩
  · rcases contribution_ingest d a.post.origin now w.db a.req a.post.body storageId with
      hnothing | ⟨hone, p, hp, hfree, htaken⟩
    · exact .inl hnothing
    · have htraced := hcodec.prepare hbody hp
      refine .inr ⟨hone, ?_, a.req.projectId, p.eventId,
        (Directory.exec_directory d.setup now w.db _).names hnames, htraced, htaken⟩
      rcases h.once a.post.origin with hnone | ⟨-, -, projectId, eventId, hnames', htraced', htaken'⟩
      · exact hnone
      · rw [Auth.Names.unique h.keys hnames' hnames, htraced'.unique htraced, hfree] at htaken'
        cases htaken'

end Frame

theorem authenticate_names {d : Deployment} {db : Db} {post : Post} {req : Ingest.IngestProject}
    (h : authenticate d db post = .ok req) : Auth.Names db d.slug req.projectId := by
  unfold authenticate at h
  split at h
  · cases h
  · next token _ =>
    cases hkey : Auth.ingestKeyProject d.setup.env db token d.slug with
    | error e =>
      rw [hkey] at h
      cases h
    | ok key =>
      rw [hkey] at h
      cases h
      exact Auth.ingestKeyProject_names hkey

theorem Inv.step {d : Deployment} (hcodec : KeepsEventId d.setup.env) {w w' : World} {label : Label}
    (h : Inv d w) (hstep : step d w label = some w') : Inv d w' := by
  cases label with
  | capture c event uuid timestamp breadcrumbs =>
    cases hstep
    exact h.capture c event uuid timestamp breadcrumbs
  | spill c index name interruption =>
    obtain ⟨item, hitem, rfl⟩ := Option.map_eq_some_iff.mp hstep
    have hmem : item ∈ (w.clients c).spilling := List.mem_of_getElem? hitem
    refine Inv.store (h.client c fun i hi => h.memory c i ?_) c name interruption
      (h.memory c item ?_)
    · simp only [Process.items, List.mem_append] at hi ⊢
      rcases hi with (hi | hi) | hi
      · exact .inl (.inl hi)
      · exact .inl (.inr (List.mem_of_mem_eraseIdx hi))
      · exact .inr hi
    · simp only [Process.items, List.mem_append]
      exact .inl (.inr hmem)
  | command c command =>
    cases command with
    | event item => cases hstep
    | flush | shutdown =>
      cases hstep
      refine h.client c fun i hi => h.memory c i ?_
      simpa [Process.items, Command.items] using hi
  | receive c =>
    obtain ⟨process, hreceive, rfl⟩ := Option.map_eq_some_iff.mp hstep
    exact h.client c fun i hi => h.memory c i (items_receive hreceive i hi)
  | timeout c =>
    simp only [EndToEnd.step] at hstep
    split at hstep
    · cases hstep
      exact h.setSender c fun i hi => by cases hi
    · cases hstep
  | transmit c =>
    obtain ⟨⟨item, posted⟩, hout, hstep⟩ := Option.bind_eq_some_iff.mp hstep
    obtain ⟨hbefore, hafter⟩ := items_outgoing hout
    have hitem : Traced w.captured item.origin item.event.eventId :=
      h.memory c item (List.mem_append_right _ (by simp [hbefore]))
    have hposted : ∀ i ∈ posted.items, Traced w.captured i.origin i.event.eventId := by
      simpa [hafter] using hitem
    dsimp only at hstep
    split at hstep
    · next body hvec =>
      cases hstep
      exact (h.setSender c hposted).setNetwork
        (List.forall_mem_cons.mpr ⟨⟨item.event, hvec, hitem⟩, h.network⟩)
    · obtain ⟨sender, hsettle, rfl⟩ := Option.map_eq_some_iff.mp hstep
      exact h.setSender c fun i hi => hposted i (items_settle hsettle i hi)
  | answer c answer =>
    obtain ⟨sender, hsettle, rfl⟩ := Option.map_eq_some_iff.mp hstep
    exact h.setSender c fun i hi =>
      h.memory c i (List.mem_append_right _ (items_settle hsettle i hi))
  | store c name interruption =>
    simp only [EndToEnd.step] at hstep
    split at hstep
    · next item hsender =>
      cases hstep
      have hitem : Traced w.captured item.origin item.event.eventId :=
        h.memory c item (List.mem_append_right _ (by simp [hsender, Sender.items]))
      exact Inv.store (h.setSender c fun i hi => by cases hi) c name interruption hitem
    · cases hstep
  | pick c =>
    simp only [EndToEnd.step] at hstep
    split at hstep
    · cases hstep
      exact h.pick hcodec c rfl
    · cases hstep
  | pause c =>
    simp only [EndToEnd.step] at hstep
    split at hstep
    · cases hstep
      exact h.setSender c fun i hi => by cases hi
    · cases hstep
  | remove c removed =>
    simp only [EndToEnd.step] at hstep
    split at hstep
    · next file hsender =>
      cases hstep
      refine (h.setDisk _ fun f hf => h.disk (d.config c).spoolDir f ?_).setSender c fun i hi => by
        cases hi
      split at hf
      · exact Spool.mem_remove hf
      · exact hf
    · cases hstep
  | crash c =>
    cases hstep
    exact h.client c fun i hi => by cases hi
  | lose post =>
    simp only [EndToEnd.step] at hstep
    split at hstep
    · cases hstep
      exact h.network_erase post
    · cases hstep
  | authenticate post =>
    simp only [EndToEnd.step] at hstep
    split at hstep
    · next hpost =>
      split at hstep
      · next req hreq =>
        cases hstep
        exact (h.network_erase post).setAdmitted
          (List.forall_mem_cons.mpr ⟨⟨h.network post hpost, authenticate_names hreq⟩, h.admitted⟩)
      · cases hstep
        exact h.network_erase post
    · cases hstep
  | ingest a storageId now =>
    simp only [EndToEnd.step] at hstep
    split at hstep
    · next ha =>
      cases hstep
      exact h.ingest hcodec ha storageId now
    · cases hstep
  | operate now op =>
    cases hstep
    exact h.exec now op

/-- Nothing captured, nothing sent, and an empty store. -/
structure Fresh (w : World) : Prop where
  db : w.db = Db.empty
  disk : ∀ dir, w.disk dir = []
  clients : ∀ c, w.clients c = .start
  network : w.network = []
  admitted : w.admitted = []
  captured : w.captured = []
  ledger : w.ledger = []

theorem Inv.fresh {d : Deployment} {w : World} (h : Fresh w) : Inv d w where
  keys := by
    rw [h.db]
    exact ⟨by simp [Db.empty], by simp [Db.empty]⟩
  memory c := by simp [h.clients, Process.start, Process.items, Sender.items]
  disk dir := by simp [h.disk]
  network := by simp [h.network]
  admitted := by simp [h.admitted]
  ledger := by simp [h.ledger]
  once origin := .inl (by constructor <;> simp [total, h.ledger])

/-- However requests and answers are lost, events retried and clients
restarted, an event is stored at most once, counted at most once for one issue,
and announced by at most one batch of notifications. -/
theorem exactly_once (d : Deployment) (hcodec : KeepsEventId d.setup.env) {w : World}
    (h : Runs.Reachable (step d) Fresh w) :
    (∀ k ∈ w.ledger, ∃ e, w.captured[k.origin]? = some e) ∧
    ∀ origin,
      (total w.ledger origin).rows.length ≤ 1 ∧
      ((total w.ledger origin).counts = [] ∨
        ∃ issueId, (total w.ledger origin).counts = [(issueId, 1)]) ∧
      ((total w.ledger origin).queued = [] ∨ ∃ k ∈ w.ledger,
        (total w.ledger origin).queued = k.queued ∧
          ∃ db projectId kind, k.queued = Notifications.oneEach db projectId kind) := by
  have hinv : Inv d w := h.invariant (fun _ => Inv.fresh) fun _ _ _ h hstep => h.step hcodec hstep
  refine ⟨hinv.ledger, fun origin => ?_⟩
  rcases hinv.once origin with hnone | ⟨hmem, hone, -⟩
  · exact ⟨by simp [hnone.rows], .inl hnone.counts, .inl hnone.queued⟩
  · exact ⟨hone.rows.le, .inr hone.counts, hone.queued.imp id fun hbatch => ⟨_, hmem, rfl, hbatch⟩⟩

/-- One client of the project "demo". -/
def Sample.deployment : Deployment where
  setup := ⟨Sample.crates, none⟩
  slug := "demo"
  config := fun _ => ⟨some "zbk_0123456789", "spool", 1000, 8, ⟨none, none, none, none⟩⟩

def Sample.start : World := ⟨Db.empty, fun _ => [], fun _ => .start, [], [], [], []⟩

/-- The answer to the first request is lost and the client restarts; the event
is sent again from the spool. -/
def Sample.answerLost : List Label :=
  let post : Post := ⟨some "zbk_0123456789", Sample.eventBody "m", 0⟩
  let admitted : Admitted := ⟨post, ⟨1, 1, "demo"⟩⟩
  Server.Sample.installation.map (fun r => .operate 0 (.request r)) ++ [
    .capture 0 { Sample.event "m" with eventId := "" } "e1" "2026-01-02T03:04:06Z" [],
    .receive 0, .transmit 0, .authenticate post, .ingest admitted "018f" 10,
    .answer 0 (.error "operation timed out"), .store 0 "0001.json" none, .crash 0, .timeout 0,
    .pick 0, .transmit 0, .authenticate post, .ingest admitted "0190" 20]

theorem Sample.eventId_eq {tree : Value} {e : Event} (h : Sample.eventDeserialize tree = .ok e) :
    e.eventId = "e1" := by
  unfold Sample.eventDeserialize at h
  split at h
  · cases h
    rfl
  · cases h

theorem Sample.keepsEventId : KeepsEventId Sample.crates where
  spool e bytes e' hvec hread := by
    obtain ⟨tree, -, htree⟩ := Except.bind_ok hread
    simp only [Sample.crates] at hvec
    split at hvec
    · next hid => rw [Sample.eventId_eq htree, hid]
    · cases hvec
  request e bytes tree e' hvec _ htree := by
    simp only [Sample.crates] at hvec
    split at hvec
    · next hid => rw [Sample.eventId_eq htree, hid]
    · cases hvec

theorem Sample.fresh : Fresh Sample.start :=
  ⟨rfl, fun _ => rfl, fun _ => rfl, rfl, rfl, rfl, rfl⟩

set_option maxRecDepth 20000 in
/-- Two requests are handled for one capture. -/
theorem exactly_once_answerLost :
    ∃ w, Runs.run (step Sample.deployment) Sample.answerLost Sample.start = some w ∧
      w.ledger.length = 2 ∧ (total w.ledger 0).rows.length = 1 ∧
      (total w.ledger 0).counts = [(1, 1)] ∧
      ((total w.ledger 0).queued = [] ∨ ∃ k ∈ w.ledger, (total w.ledger 0).queued = k.queued ∧
        ∃ db projectId kind, k.queued = Notifications.oneEach db projectId kind) := by
  have hrun : ∃ w ∈ Runs.run (step Sample.deployment) Sample.answerLost Sample.start,
      w.ledger.length = 2 ∧ (total w.ledger 0).rows.length = 1 ∧
        (total w.ledger 0).counts = [(1, 1)] := by decide +kernel
  obtain ⟨w, hw, hledger, hrows, hcounts⟩ := hrun
  have honce := exactly_once Sample.deployment Sample.keepsEventId
    ⟨Sample.start, Sample.answerLost, Sample.fresh, hw⟩
  exact ⟨w, hw, hledger, hrows, hcounts, (honce.2 0).2.2⟩

end Zbierak.EndToEnd
