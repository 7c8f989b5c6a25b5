import Zbierak.Credentials
import Zbierak.ExactlyOnce
import Zbierak.SpoolRetry

/-!
# A captured event is never refused for what it says

The client checks an event before it takes it, and the service checks it again.
On the way it is written, spooled, read and written once more. `Moves` says where
the parts of a world after one step come from; the bytes of every request are
those of its capture, so that the second check repeats the first.
-/
namespace Zbierak.Acceptance

open EndToEnd Sdk Server

/-- Where everything in a world comes from, one step earlier. -/
structure Moves (d : Deployment) (w w' : World) : Prop where
  captured : w'.captured = w.captured ∨ ∃ c event uuid timestamp breadcrumbs prepared,
    (d.config c).context.prepare d.setup.env uuid timestamp breadcrumbs event = .ok prepared ∧
      w'.captured = w.captured ++ [prepared]
  memory : ∀ c, ∀ i ∈ (w'.clients c).items, i ∈ (w.clients c).items ∨
    (w'.captured = w.captured ++ [i.event] ∧ i.origin = w.captured.length) ∨
      ∃ dir, ∃ f ∈ w.disk dir, f.origin = i.origin ∧ d.setup.env.eventFromSlice f.bytes = .ok i.event
  disk : ∀ dir, ∀ f ∈ w'.disk dir, f ∈ w.disk dir ∨
    ∃ c, ∃ i ∈ (w.clients c).items, i.origin = f.origin ∧ d.setup.env.eventToVec i.event = .ok f.bytes
  network : ∀ m ∈ w'.network, m ∈ w.network ∨
    ∃ c, ∃ i ∈ (w.clients c).items, i.origin = m.origin ∧ d.setup.env.eventToVec i.event = .ok m.body
  admitted : ∀ a ∈ w'.admitted, a ∈ w.admitted ∨
    (a.post ∈ w.network ∧ authenticate d w.db a.post = .ok a.req)
  db : w'.db = w.db ∨ ∃ now op, w'.db = (exec d.setup now w.db op).2

theorem Moves.refl (d : Deployment) (w : World) : Moves d w w where
  captured := .inl rfl
  memory _ _ h := .inl h
  disk _ _ h := .inl h
  network _ h := .inl h
  admitted _ h := .inl h
  db := .inl rfl

/-- What holds of the entries of every list, with another list in one place. -/
theorem forall_mem_update {α β γ : Type} [DecidableEq α] {f : α → β} {a : α} {b : β} {g : β → List γ}
    {P : α → γ → Prop} (hold : ∀ a, ∀ x ∈ g (f a), P a x) (hnew : ∀ x ∈ g b, P a x) :
    ∀ a', ∀ x ∈ g (Function.update f a b a'), P a' x :=
  (Function.forall_update_iff f fun a b => ∀ x ∈ g b, P a x).mpr ⟨hnew, fun a' _ => hold a'⟩

section Parts

variable {d : Deployment} {w : World}

/-- A client that holds nothing new. -/
theorem Moves.client {c : Nat} {process : Process}
    (hitems : ∀ i ∈ process.items, i ∈ (w.clients c).items) :
    Moves d w { w with clients := Function.update w.clients c process } :=
  { Moves.refl d w with
    memory := forall_mem_update (fun _ _ h => .inl h) fun i hi => .inl (hitems i hi) }

theorem Moves.setSender {c : Nat} {sender : Sender}
    (hitems : ∀ i ∈ sender.items, i ∈ (w.clients c).items) : Moves d w (w.setSender c sender) := by
  refine .client fun i hi => ?_
  rcases List.mem_append.mp hi with hi | hi
  · exact List.mem_append_left _ hi
  · exact hitems i hi

theorem mem_sender {c : Nat} {item : Item} (h : item ∈ (w.clients c).sender.items) :
    item ∈ (w.clients c).items := List.mem_append_right _ h

/-- A client that gave one of its items to the spool. -/
theorem Moves.spool {c : Nat} {process : Process}
    (hitems : ∀ i ∈ process.items, i ∈ (w.clients c).items) (name : String) {item : Item}
    (hitem : item ∈ (w.clients c).items) (interruption : Option Spool.Interruption) :
    Moves d w (spool d { w with clients := Function.update w.clients c process } c name item
      interruption) :=
  { Moves.client hitems with
    disk := forall_mem_update (g := id) (fun _ _ h => .inl h) fun f hf => by
      rcases Spool.mem_store hf with hold | ⟨horigin, hvec⟩
      · exact .inl hold
      · exact .inr ⟨c, item, hitem, horigin.symm, hvec⟩ }

end Parts

theorem moves_capture (d : Deployment) (w : World) (c : Nat) (event : Event) (uuid timestamp : String)
    (breadcrumbs : List Breadcrumb) : Moves d w (capture d w c event uuid timestamp breadcrumbs) := by
  unfold EndToEnd.capture
  dsimp only
  split
  · exact .refl d w
  · next prepared hprepare =>
    split
    · exact .refl d w
    · next process henqueue =>
      refine { Moves.refl d w with
        captured := .inr ⟨c, event, uuid, timestamp, breadcrumbs, prepared, hprepare, rfl⟩
        memory := forall_mem_update (fun _ _ h => .inl h) fun i hi => ?_ }
      rcases items_enqueue henqueue i hi with hi | rfl
      · exact .inl hi
      · exact .inr (.inl ⟨rfl, rfl⟩)

theorem moves_transmit {d : Deployment} {w : World} {c : Nat} {item : Item} {posted : Sender}
    (hout : (w.clients c).sender.outgoing = some (item, posted)) {body : Bytes}
    (hvec : d.setup.env.eventToVec item.event = .ok body) :
    Moves d w { w.setSender c posted with
      network := ⟨(d.config c).token, body, item.origin⟩ :: w.network } := by
  obtain ⟨hbefore, hafter⟩ := items_outgoing hout
  have hitem : item ∈ (w.clients c).items := mem_sender (by simp [hbefore])
  exact { Moves.setSender (d := d) (w := w) (c := c) (by simpa [hafter] using hitem) with
    network := List.forall_mem_cons.mpr ⟨.inr ⟨c, item, hitem, rfl, hvec⟩, fun _ h => .inl h⟩ }

/-- The sender reads the event of a file that is in its spool. -/
theorem moves_pick {d : Deployment} {w : World} {c : Nat} {files : Spool.Directory}
    {found : Option (Spool.File × Event)}
    (hread : Spool.oldest d.setup.env (w.disk (d.config c).spoolDir) = (files, found)) :
    Moves d w ((w.setDisk (d.config c).spoolDir files).setSender c (redeliver found)) := by
  obtain ⟨hfiles, hfound⟩ := Spool.oldest_spec hread
  refine { Moves.refl d w with
    memory := forall_mem_update (fun _ _ h => .inl h) fun i hi => ?_
    disk := forall_mem_update (g := id) (fun _ _ h => .inl h) fun f hf => .inl (hfiles f hf) }
  rcases List.mem_append.mp hi with hi | hi
  · exact .inl (List.mem_append_left _ hi)
  · cases found with
    | none => cases hi
    | some r =>
      obtain ⟨hmem, hslice⟩ := hfound r.1 r.2 rfl
      obtain rfl := List.mem_singleton.mp hi
      exact .inr (.inr ⟨_, r.1, hmem, rfl, hslice⟩)

theorem step_moves {d : Deployment} {w w' : World} {label : Label} (hstep : step d w label = some w') :
    Moves d w w' := by
  cases label with
  | capture c event uuid timestamp breadcrumbs =>
    cases hstep
    exact moves_capture d w c event uuid timestamp breadcrumbs
  | spill c index name interruption =>
    obtain ⟨item, hitem, rfl⟩ := Option.map_eq_some_iff.mp hstep
    have hspilling : ∀ i ∈ (w.clients c).spilling, i ∈ (w.clients c).items := fun i hi =>
      List.mem_append_left _ (List.mem_append_right _ hi)
    refine .spool (fun i hi => ?_) name (hspilling item (List.mem_of_getElem? hitem)) interruption
    simp only [Process.items, List.mem_append] at hi ⊢
    exact hi.imp (Or.imp id List.mem_of_mem_eraseIdx) id
  | command c command =>
    cases command with
    | event item => cases hstep
    | flush | shutdown =>
      cases hstep
      refine .client fun i hi => ?_
      simpa [Process.items, Command.items] using hi
  | receive c =>
    obtain ⟨process, hreceive, rfl⟩ := Option.map_eq_some_iff.mp hstep
    exact .client (items_receive hreceive)
  | timeout c | pause c =>
    simp only [EndToEnd.step] at hstep
    split at hstep
    · cases hstep
      exact .setSender fun i hi => by cases hi
    · cases hstep
  | transmit c =>
    obtain ⟨⟨item, posted⟩, hout, hstep⟩ := Option.bind_eq_some_iff.mp hstep
    dsimp only at hstep
    split at hstep
    · next body hvec =>
      cases hstep
      exact moves_transmit hout hvec
    · obtain ⟨sender, hsettle, rfl⟩ := Option.map_eq_some_iff.mp hstep
      obtain ⟨hbefore, hafter⟩ := items_outgoing hout
      refine .setSender fun i hi => mem_sender ?_
      rw [hbefore, ← hafter]
      exact items_settle hsettle i hi
  | answer c answer =>
    obtain ⟨sender, hsettle, rfl⟩ := Option.map_eq_some_iff.mp hstep
    exact .setSender fun i hi => mem_sender (items_settle hsettle i hi)
  | store c name interruption =>
    simp only [EndToEnd.step] at hstep
    split at hstep
    · next item hsender =>
      cases hstep
      refine .spool (fun i hi => ?_) name (mem_sender (by simp [hsender, Sender.items])) interruption
      exact (List.mem_append.mp hi).elim (List.mem_append_left _) fun hi => by cases hi
    · cases hstep
  | pick c =>
    simp only [EndToEnd.step] at hstep
    split at hstep
    · cases hstep
      exact moves_pick rfl
    · cases hstep
  | remove c removed =>
    simp only [EndToEnd.step] at hstep
    split at hstep
    · next file hsender =>
      cases hstep
      refine { Moves.setSender (d := d) (w := w) (c := c)
          (fun i hi => by cases hi) with
        disk := forall_mem_update (g := id) (fun _ _ h => .inl h) fun f hf => .inl ?_ }
      split at hf
      · exact Spool.mem_remove hf
      · exact hf
    · cases hstep
  | crash c =>
    cases hstep
    exact .client fun i hi => by cases hi
  | lose post =>
    simp only [EndToEnd.step] at hstep
    split at hstep
    · cases hstep
      exact { Moves.refl d w with network := fun m hm => .inl (List.mem_of_mem_erase hm) }
    · cases hstep
  | authenticate post =>
    simp only [EndToEnd.step] at hstep
    split at hstep
    · next hpost =>
      split at hstep
      · next req hreq =>
        cases hstep
        exact { Moves.refl d w with
          network := fun m hm => .inl (List.mem_of_mem_erase hm)
          admitted := List.forall_mem_cons.mpr ⟨.inr ⟨hpost, hreq⟩, fun _ h => .inl h⟩ }
      · cases hstep
        exact { Moves.refl d w with network := fun m hm => .inl (List.mem_of_mem_erase hm) }
    · cases hstep
  | ingest a storageId now =>
    simp only [EndToEnd.step] at hstep
    split at hstep
    · cases hstep
      exact { Moves.refl d w with
        admitted := fun b hb => .inl (List.mem_of_mem_erase hb)
        db := .inr ⟨now, _, rfl⟩ }
    · cases hstep
  | operate now op =>
    cases hstep
    exact { Moves.refl d w with db := .inr ⟨now, op, rfl⟩ }

/-- Reading the text of the event, from the spool or from a request, gives the
event back, and the text is text. -/
structure ReadsBack (env : Crates) (event : Event) : Prop where
  spool : ∀ body, env.eventToVec event = .ok body → env.eventFromSlice body = .ok event
  request : ∀ body, env.eventToVec event = .ok body →
    ∃ value, env.valueFromSlice body = .ok value ∧ env.eventDeserialize value = .ok event
  utf8 : ∀ body, env.eventToVec event = .ok body → (Text.fromUtf8 body).isSome = true

/-- The bytes are the text of the capture with this number. -/
def Encodes (env : Crates) (captured : List Event) (origin : Nat) (body : Bytes) : Prop :=
  ∃ e, captured[origin]? = some e ∧ env.eventToVec e = .ok body

/-- Everything on its way is what was captured, and that is valid. -/
structure Intact (env : Crates) (w : World) : Prop where
  valid : ∀ e ∈ w.captured, e.validate env.parseRfc3339 = .ok ()
  memory : ∀ c, ∀ i ∈ (w.clients c).items, w.captured[i.origin]? = some i.event
  disk : ∀ dir, ∀ f ∈ w.disk dir, Encodes env w.captured f.origin f.bytes
  network : ∀ m ∈ w.network, Encodes env w.captured m.origin m.body
  admitted : ∀ a ∈ w.admitted, Encodes env w.captured a.post.origin a.post.body

theorem prepare_valid {env : Crates} {context : CaptureContext} {uuid timestamp : String}
    {breadcrumbs : List Breadcrumb} {event prepared : Event}
    (h : context.prepare env uuid timestamp breadcrumbs event = .ok prepared) :
    prepared.validate env.parseRfc3339 = .ok () := by
  unfold CaptureContext.prepare at h
  dsimp only at h
  split at h
  · cases h
  · split at h
    · cases h
    · next hvalid =>
      cases h
      exact hvalid

section Steps

variable {d : Deployment} {w w' : World}

theorem Moves.captured_grows (h : Moves d w w') : w.captured <+: w'.captured := by
  rcases h.captured with heq | ⟨_, _, _, _, _, _, -, heq⟩
  · exact heq ▸ List.prefix_rfl
  · exact heq ▸ List.prefix_append _ _

theorem Moves.capture_kept (h : Moves d w w') {origin : Nat} {e : Event}
    (he : w.captured[origin]? = some e) : w'.captured[origin]? = some e := by
  obtain ⟨more, hmore⟩ := h.captured_grows
  rw [← hmore, List.getElem?_append_left (List.getElem?_eq_some_iff.mp he).1, he]

theorem Moves.encodes (h : Moves d w w') {env : Crates} {origin : Nat} {body : Bytes}
    (hbody : Encodes env w.captured origin body) : Encodes env w'.captured origin body := by
  obtain ⟨e, he, hvec⟩ := hbody
  exact ⟨e, h.capture_kept he, hvec⟩

theorem Moves.intact (h : Moves d w w') (hreads : ∀ e ∈ w.captured, ReadsBack d.setup.env e)
    (hw : Intact d.setup.env w) : Intact d.setup.env w' where
  valid e he := by
    rcases h.captured with heq | ⟨_, _, _, _, _, prepared, hprepare, heq⟩
    · exact hw.valid e (heq ▸ he)
    · rw [heq, List.mem_append, List.mem_singleton] at he
      rcases he with he | rfl
      · exact hw.valid e he
      · exact prepare_valid hprepare
  memory c i hi := by
    rcases h.memory c i hi with hold | ⟨heq, horigin⟩ | ⟨dir, f, hf, horigin, hslice⟩
    · exact h.capture_kept (hw.memory c i hold)
    · rw [heq, horigin]
      exact List.getElem?_concat_length
    · -- a file holds the text of a capture, so what is read from it is the capture
      obtain ⟨e, he, hvec⟩ := hw.disk dir f hf
      have hback := (hreads e (List.mem_of_getElem? he)).spool f.bytes hvec
      rw [hslice] at hback
      cases hback
      exact horigin ▸ h.capture_kept he
  disk dir f hf := by
    rcases h.disk dir f hf with hold | ⟨c, i, hi, horigin, hvec⟩
    · exact h.encodes (hw.disk dir f hold)
    · exact ⟨i.event, h.capture_kept (horigin ▸ hw.memory c i hi), hvec⟩
  network m hm := by
    rcases h.network m hm with hold | ⟨c, i, hi, horigin, hvec⟩
    · exact h.encodes (hw.network m hold)
    · exact ⟨i.event, h.capture_kept (horigin ▸ hw.memory c i hi), hvec⟩
  admitted a ha := by
    rcases h.admitted a ha with hold | ⟨hpost, -⟩
    · exact h.encodes (hw.admitted a hold)
    · exact h.encodes (hw.network a.post hpost)

end Steps

/-- While the captures of a run can be read back, everything on its way is what
was captured. -/
theorem intact_reachable {d : Deployment} {w : World} (h : Runs.Reachable (step d) Fresh w)
    (hreads : ∀ e ∈ w.captured, ReadsBack d.setup.env e) : Intact d.setup.env w := by
  refine h.invariant (I := fun w => (∀ e ∈ w.captured, ReadsBack d.setup.env e) →
    Intact d.setup.env w) (fun w hw _ => ?_) (fun w a w' hw hstep hreads => ?_) hreads
  · constructor
    · simp [hw.captured]
    · simp [hw.clients, Process.start, Process.items, Sender.items]
    · simp [hw.disk]
    · simp [hw.network]
    · simp [hw.admitted]
  · have hmoves := step_moves hstep
    have hbefore : ∀ e ∈ w.captured, ReadsBack d.setup.env e := fun e he =>
      hreads e (hmoves.captured_grows.subset he)
    exact hmoves.intact hbefore (hw hbefore)

/-- The rows that an admitted request relies on are there. -/
structure Ready (env : Crates) (w : World) : Prop where
  consistent : EventStore.Consistent w.db
  hashes : ∀ r ∈ w.db.rawEvents, r.bodyHash = some (env.sha256Hex r.body)
  admitted : ∀ a ∈ w.admitted, (w.db.projects.get? a.req.projectId).isSome = true ∧
    (w.db.ingestKeys.get? a.req.keyId).isSome = true

theorem hashes_kept (cfg : Setup) (now : Int) (db : Db) (op : Op)
    (h : ∀ r ∈ db.rawEvents, r.bodyHash = some (cfg.env.sha256Hex r.body)) :
    ∀ r ∈ (exec cfg now db op).2.rawEvents, r.bodyHash = some (cfg.env.sha256Hex r.body) := by
  have hchange := exec_change cfg now db op
  generalize exec cfg now db op = result at hchange
  cases hchange with
  | account hissues | timeline _ _ _ _ hissues | endpointAdded _ _ _ hissues
  | endpointRemoved _ _ _ hissues | delivery _ _ _ _ _ hissues =>
    rw [hissues.rawEvents]
    exact h
  | status projectId issueId userId status i hi hne hdb =>
    subst hdb
    exact h
  | accepted req body storageId p hp hraw hid =>
    intro r hr
    rcases List.mem_append.mp hr with hr | hr
    · exact h r hr
    · obtain rfl := List.mem_singleton.mp hr
      exact congrArg some (Ingest.prepare_bodyHash hp)

/-- No operation deletes an ingestion key. -/
theorem key_kept (cfg : Setup) (now : Int) (db : Db) (op : Op) {keyId : Int}
    (h : (db.ingestKeys.get? keyId).isSome = true) :
    ((exec cfg now db op).2.ingestKeys.get? keyId).isSome = true := by
  have hwrite := Credentials.run_keys cfg db (now, op)
  change ((Credentials.run cfg db (now, op)).ingestKeys.get? keyId).isSome = true
  generalize (Credentials.run cfg db (now, op)).ingestKeys = keys at hwrite
  cases hwrite with
  | none => exact h
  | touched | revoked =>
    rw [Table.get?_update, Option.isSome_map]
    exact h
  | issued =>
    obtain ⟨k, hk⟩ := Option.isSome_iff_exists.mp h
    rw [db.ingestKeys.get?_insert_of_some _ hk, Option.isSome_some]

theorem project_kept (cfg : Setup) (now : Int) (db : Db) (op : Op) {projectId : Int}
    (h : (db.projects.get? projectId).isSome = true) :
    ((exec cfg now db op).2.projects.get? projectId).isSome = true := by
  obtain ⟨p, hp⟩ := Option.isSome_iff_exists.mp h
  rw [(Directory.exec_directory cfg now db op).project hp, Option.isSome_some]

/-- A checked key and the project of its slug exist. -/
theorem authenticate_rows {d : Deployment} {db : Db} {post : Post} {req : Ingest.IngestProject}
    (h : authenticate d db post = .ok req) : (db.projects.get? req.projectId).isSome = true ∧
      (db.ingestKeys.get? req.keyId).isSome = true := by
  obtain ⟨p, hp, -⟩ := authenticate_names h
  refine ⟨by rw [hp, Option.isSome_some], ?_⟩
  unfold authenticate at h
  split at h
  · cases h
  · next token _ =>
    cases hkey : Auth.ingestKeyProject d.setup.env db token d.slug with
    | error e =>
      rw [hkey] at h
      cases h
    | ok key =>
      rw [hkey] at h
      cases h
      obtain ⟨k, hk, -⟩ := Auth.ingestKeyProject_live hkey
      rw [hk, Option.isSome_some]

theorem Moves.ready {d : Deployment} {w w' : World} (h : Moves d w w') (hw : Ready d.setup.env w) :
    Ready d.setup.env w' := by
  have hrows : ∀ a ∈ w'.admitted, (w.db.projects.get? a.req.projectId).isSome = true ∧
      (w.db.ingestKeys.get? a.req.keyId).isSome = true := by
    intro a ha
    rcases h.admitted a ha with hold | ⟨-, hreq⟩
    · exact hw.admitted a hold
    · exact authenticate_rows hreq
  rcases h.db with heq | ⟨now, op, heq⟩
  · exact ⟨heq ▸ hw.consistent, heq ▸ hw.hashes, heq ▸ hrows⟩
  · constructor
    · exact heq ▸ EventStore.exec_consistent d.setup now w.db op hw.consistent
    · exact heq ▸ hashes_kept d.setup now w.db op hw.hashes
    · exact fun a ha => heq ▸ ⟨project_kept d.setup now w.db op (hrows a ha).1,
        key_kept d.setup now w.db op (hrows a ha).2⟩

theorem ready_reachable {d : Deployment} {w : World} (h : Runs.Reachable (step d) Fresh w) :
    Ready d.setup.env w := by
  refine h.invariant (fun w hw => ?_) fun w a w' hw hstep => (step_moves hstep).ready hw
  refine ⟨hw.db ▸ EventStore.consistent_empty, ?_, by simp [hw.admitted]⟩
  simp [hw.db, Db.empty]

section Answer

variable {env : Crates} {publicUrl : Option String} {req : Ingest.IngestProject} {body : Bytes}
  {p : Ingest.Prepared} {storageId : String} {now : Int} {db : Db}

/-- A new event is accepted when its storage id is free and its project and key exist. -/
theorem ingest_new (hp : Ingest.prepare env body = .ok p)
    (hraw : Ingest.findRaw db req.projectId p.eventId = none)
    (hid : ∀ r ∈ db.rawEvents, r.id ≠ storageId) (hevent : ∀ e ∈ db.events, e.id ≠ storageId)
    (hproject : (db.projects.get? req.projectId).isSome = true)
    (hkey : (db.ingestKeys.get? req.keyId).isSome = true) :
    (Ingest.ingest env publicUrl req body storageId now db).1 =
      .ok ⟨p.eventId, Ingest.issueOf req p db.issues, p.fingerprint, false⟩ := by
  have hinsert : Ingest.insertRawEvent db (Ingest.rawRow req body p storageId now) =
      .ok (some { db with rawEvents := db.rawEvents ++ [Ingest.rawRow req body p storageId now] }) := by
    have htaken : ¬ (Ingest.findRaw db req.projectId p.eventId).isSome = true := by simp [hraw]
    have hany : ¬ (db.rawEvents.any fun r => r.id = storageId) = true := by
      rw [List.any_eq_true]
      rintro ⟨r, hr, heq⟩
      exact hid r hr (of_decide_eq_true heq)
    have hproject' : ¬ (db.projects.get? req.projectId).isNone = true := by
      rw [Option.isNone_iff_eq_none]
      exact Option.isSome_iff_ne_none.mp hproject
    have hkey' : ¬ (db.ingestKeys.get? req.keyId).isNone = true := by
      rw [Option.isNone_iff_eq_none]
      exact Option.isSome_iff_ne_none.mp hkey
    exact (if_neg htaken).trans ((if_neg hany).trans ((if_neg hproject').trans (if_neg hkey')))
  have htx : Ingest.ingestTx env publicUrl req body p storageId now db =
      .ok (Ingest.accepted env publicUrl req body p storageId now db,
        ⟨p.eventId, Ingest.issueOf req p db.issues, p.fingerprint, false⟩) := by
    change (Ingest.insertRawEvent db (Ingest.rawRow req body p storageId now) >>= _) = _
    simp only [hinsert, bind, Except.bind, Ingest.acceptNew_eq]
    exact if_neg (by simpa using hevent)
  simp only [Ingest.ingest, hp, commit_ok htx]

/-- A stored event is found with its raw event. -/
theorem acceptedResult_finds (hc : EventStore.Consistent db) {projectId : Int} {eventId : String}
    (hraw : (Ingest.findRaw db projectId eventId).isSome = true) : ∃ r ∈ db.rawEvents,
      r.projectId = projectId ∧ r.producerEventId = eventId ∧ ∃ issueId fingerprint,
        Ingest.acceptedResult db projectId eventId = .ok (r.bodyHash, issueId, fingerprint) := by
  obtain ⟨r, hfind⟩ := Option.isSome_iff_exists.mp hraw
  have hr := List.mem_of_find?_eq_some hfind
  have hkey := List.find?_some hfind
  obtain ⟨rfl, rfl⟩ := of_decide_eq_true hkey
  obtain ⟨e, he, hid, -⟩ := hc.event_of_raw hr
  exact ⟨r, hr, rfl, rfl, e.issueId, e.fingerprint, hc.acceptedResult hr he hid⟩

/-- An event that is stored is a duplicate of it or in conflict with it. -/
theorem ingest_again (hc : EventStore.Consistent db) (hp : Ingest.prepare env body = .ok p)
    (hraw : (Ingest.findRaw db req.projectId p.eventId).isSome = true) :
    (∃ response, (Ingest.ingest env publicUrl req body storageId now db).1 = .ok response ∧
      response.id = p.eventId) ∨
    ((Ingest.ingest env publicUrl req body storageId now db).1 = .error (.eventConflict p.eventId) ∧
      ∃ r ∈ db.rawEvents, r.projectId = req.projectId ∧ r.producerEventId = p.eventId ∧
        r.bodyHash ≠ some p.bodyHash) := by
  obtain ⟨r, hr, hproject, hproducer, issueId, fingerprint, hresult⟩ := acceptedResult_finds hc hraw
  have htx : Ingest.ingestTx env publicUrl req body p storageId now db =
      Ingest.repeatAccepted req p now db := by
    simp [Ingest.ingestTx, Ingest.insertRawEvent, hraw, bind, Except.bind]
  simp only [Ingest.ingest, hp]
  by_cases hhash : (r.bodyHash.any fun stored => stored ≠ p.bodyHash) = true
  · refine .inr ⟨?_, r, hr, hproject, hproducer, fun heq => by simp [heq] at hhash⟩
    have herror : Ingest.repeatAccepted req p now db = .error (.eventConflict p.eventId) := by
      simp only [Ingest.repeatAccepted, hresult, bind, Except.bind, if_pos hhash]
    rw [commit_error (htx.trans herror)]
  · refine .inl ⟨⟨p.eventId, issueId, fingerprint, true⟩, ?_, rfl⟩
    have hok : Ingest.repeatAccepted req p now db =
        .ok (Ingest.touchKey db req.keyId now, ⟨p.eventId, issueId, fingerprint, true⟩) := by
      simp only [Ingest.repeatAccepted, hresult, bind, Except.bind, if_neg hhash]
    rw [commit_ok (htx.trans hok)]

end Answer

/-- The header of a post says what the service checks. -/
theorem ingestProject_deliver (d : Deployment) (db : Db) (post : Post)
    (htoken : ∀ token, post.token = some token →
      token ≠ "" ∧ ∀ c ∈ token.toList, Http.isTokenChar c = true) :
    Http.ingestProject d.setup.env db (Http.deliverRequest post.token d.slug post.body).headers d.slug =
      authenticate d db post := by
  unfold Http.ingestProject authenticate Http.deliverRequest
  cases hpost : post.token with
  | none => rfl
  | some token =>
    obtain ⟨hne, hchars⟩ := htoken token hpost
    have hbearer := Http.bearer_bearerAuth d.setup.env hchars hne (some (Text.toUtf8 "application/json"))
    simp only [Option.map_some, hbearer, bind, Except.bind]
    cases Auth.ingestKeyProject d.setup.env db token d.slug <;> rfl

/-- The answer to the HTTP request of an admitted post. -/
def answer (d : Deployment) (db : Db) (a : Admitted) (storageId : String) (now : Int) :
    Except AppError IngestResponse :=
  match Http.eventBody d.setup.env (Http.deliverRequest a.post.token d.slug a.post.body) with
  | .error e => .error e
  | .ok body => (Ingest.ingest d.setup.env d.setup.publicUrl a.req body storageId now db).1

/-- Its status. -/
def status : Except AppError IngestResponse → Nat
  | .ok _ => 202
  | .error e => e.status

theorem eventBody_deliver (env : Crates) (token : Option String) (slug : String) (body : Bytes) :
    Http.eventBody env (Http.deliverRequest token slug body) =
      if Http.eventBodyLimit < body.length then
        .error (.payloadTooLarge "request body exceeds the allowed size")
      else .ok body := by
  have hjson : Http.isJsonMediaType env (Http.deliverRequest token slug body).headers = true := by
    have hchars : "application/json".toList.all Http.isTokenChar = true := by decide +kernel
    have htext : env.headers.toStr (Text.toUtf8 "application/json") = some "application/json" :=
      (env.headers.toStr_eq_some _ _).mpr
        ⟨rfl, Http.visible_text fun c hc => .inl (List.all_eq_true.mp hchars c hc)⟩
    simp only [Http.isJsonMediaType, Http.deliverRequest, Option.bind_some, htext]
    decide
  rw [Http.eventBody, if_neg (not_not.mpr hjson)]
  rfl

theorem prepare_encoded {env : Crates} {e : Event} {body : Bytes} (hreads : ReadsBack env e)
    (hvalid : e.validate env.parseRfc3339 = .ok ()) (hvec : env.eventToVec e = .ok body) :
    ∃ p, Ingest.prepare env body = .ok p ∧ p.eventId = e.eventId := by
  obtain ⟨value, hvalue, hevent⟩ := hreads.request body hvec
  obtain ⟨payload, hpayload⟩ := Option.isSome_iff_exists.mp (hreads.utf8 body hvec)
  have hprepare : Ingest.prepare env body = .ok {
      eventId := e.eventId
      fingerprint := Fingerprint.eventFingerprint env value
      title := Text.takeChars 200 e.message
      labels := Tags.labelsFromEventTags e.tags
      payload
      bodyHash := env.sha256Hex body } := by
    simp only [Ingest.prepare, hvalue, hevent, hvalid, hpayload]
  exact ⟨_, hprepare, rfl⟩

/-- What can come of an admitted request for the event `e`: it is stored or found
stored, it is larger than the limit, or its event id was taken by other bytes. The
client takes the first for a delivery and gives up on the others. -/
inductive Answered (d : Deployment) (db : Db) (a : Admitted) (storageId : String) (now : Int)
    (e : Event) : Prop where
  | stored (response : IngestResponse) (hsize : a.post.body.length ≤ Http.eventBodyLimit)
      (hok : answer d db a storageId now = .ok response) (hid : response.id = e.eventId)
      (hdelivered : outcome (.ok (status (answer d db a storageId now))) = .delivered) :
      Answered d db a storageId now e
  | tooLarge (hsize : Http.eventBodyLimit < a.post.body.length)
      (herror : answer d db a storageId now =
        .error (.payloadTooLarge "request body exceeds the allowed size"))
      (hfailed : outcome (.ok (status (answer d db a storageId now))) = .permanentFailure) :
      Answered d db a storageId now e
  | conflict (r : RawEvent) (hr : r ∈ db.rawEvents) (hproject : r.projectId = a.req.projectId)
      (hproducer : r.producerEventId = e.eventId) (hbody : r.body ≠ a.post.body)
      (herror : answer d db a storageId now = .error (.eventConflict e.eventId))
      (hfailed : outcome (.ok (status (answer d db a storageId now))) = .permanentFailure) :
      Answered d db a storageId now e

/-- However requests and answers are lost, repeated and delayed, an admitted
request is answered for the event of its capture, and never with a complaint
about what the event says. -/
theorem captured_answered (d : Deployment) {w : World} (h : Runs.Reachable (step d) Fresh w)
    (hreads : ∀ e ∈ w.captured, ReadsBack d.setup.env e) {a : Admitted} (ha : a ∈ w.admitted)
    {storageId : String} (hraw : ∀ r ∈ w.db.rawEvents, r.id ≠ storageId)
    (hevent : ∀ e ∈ w.db.events, e.id ≠ storageId) (now : Int) :
    ∃ e, w.captured[a.post.origin]? = some e ∧ Answered d w.db a storageId now e := by
  have hintact := intact_reachable h hreads
  have hready := ready_reachable h
  obtain ⟨e, he, hvec⟩ := hintact.admitted a ha
  have hmem := List.mem_of_getElem? he
  obtain ⟨p, hp, hid⟩ := prepare_encoded (hreads e hmem) (hintact.valid e hmem) hvec
  refine ⟨e, he, ?_⟩
  by_cases hsize : Http.eventBodyLimit < a.post.body.length
  · have hanswer : answer d w.db a storageId now =
        .error (.payloadTooLarge "request body exceeds the allowed size") := by
      simp only [answer, eventBody_deliver, if_pos hsize]
    exact .tooLarge hsize hanswer (by rw [hanswer]; rfl)
  · have hanswer : answer d w.db a storageId now =
        (Ingest.ingest d.setup.env d.setup.publicUrl a.req a.post.body storageId now w.db).1 := by
      simp only [answer, eventBody_deliver, if_neg hsize]
    cases hfind : Ingest.findRaw w.db a.req.projectId p.eventId with
    | none =>
      obtain ⟨hproject, hkey⟩ := hready.admitted a ha
      have hok := hanswer.trans (ingest_new hp hfind hraw hevent hproject hkey)
      exact .stored _ (not_lt.mp hsize) hok hid (by rw [hok]; rfl)
    | some r =>
      rcases ingest_again hready.consistent hp (by rw [hfind, Option.isSome_some]) with
        ⟨response, hrepeat, hsame⟩ | ⟨hconflict, r, hr, hproject, hproducer, hhash⟩
      · have hok := hanswer.trans hrepeat
        exact .stored response (not_lt.mp hsize) hok (hsame.trans hid) (by rw [hok]; rfl)
      · have herror := hanswer.trans (hid ▸ hconflict)
        refine .conflict r hr hproject (hid ▸ hproducer) (fun heq => hhash ?_) herror
          (by rw [herror]; rfl)
        rw [hready.hashes r hr, heq, Ingest.prepare_bodyHash hp]

/-- A captured event on its way to the store. -/
def Sample.sent : List Label :=
  let post : Post := ⟨some "zbk_0123456789", Sample.eventBody "m", 0⟩
  Server.Sample.installation.map (fun r => .operate 0 (.request r)) ++ [
    .capture 0 { Sample.event "m" with eventId := "" } "e1" "2026-01-02T03:04:06Z" [],
    .receive 0, .transmit 0, .authenticate post]

theorem Sample.readsBack : ReadsBack Sample.crates (Sample.event "m") := by
  constructor <;> rintro body ⟨⟩
  · rfl
  · exact ⟨_, rfl, rfl⟩
  · rfl

set_option maxRecDepth 20000 in
theorem Sample.captured_sent :
    (Runs.run (step EndToEnd.Sample.deployment) Sample.sent EndToEnd.Sample.start).map World.captured =
      some [Sample.event "m"] := by
  rfl

set_option maxRecDepth 20000 in
theorem captured_answered_sent :
    ∃ w, Runs.run (step EndToEnd.Sample.deployment) Sample.sent EndToEnd.Sample.start = some w ∧
      ∃ e, w.captured[0]? = some e ∧ Answered EndToEnd.Sample.deployment w.db
        ⟨⟨some "zbk_0123456789", Sample.eventBody "m", 0⟩, ⟨1, 1, "demo"⟩⟩ "018f" 10 e := by
  have hrun : ∃ w ∈ Runs.run (step EndToEnd.Sample.deployment) Sample.sent EndToEnd.Sample.start,
      (⟨⟨some "zbk_0123456789", Sample.eventBody "m", 0⟩, ⟨1, 1, "demo"⟩⟩ : Admitted) ∈ w.admitted ∧
      w.db.rawEvents = [] ∧ w.db.events = [] := by decide +kernel
  obtain ⟨w, hw, ha, hraw, hevents⟩ := hrun
  have hcaptured : w.captured = [Sample.event "m"] := by
    have hmap := Sample.captured_sent
    rw [hw] at hmap
    exact Option.some.inj hmap
  refine ⟨w, hw, captured_answered EndToEnd.Sample.deployment
    ⟨EndToEnd.Sample.start, Sample.sent, EndToEnd.Sample.fresh, hw⟩ (fun e he => ?_) ha ?_ ?_ 10⟩
  · rw [hcaptured, List.mem_singleton] at he
    exact he ▸ Sample.readsBack
  · simp [hraw]
  · simp [hevents]

end Zbierak.Acceptance
