import Zbierak.Server

/-!
# Delivery by any number of workers

The store, a clock, and the deliveries that workers have in hand. A worker
claims a row, prepares a request, sends it, and records the outcome in separate
steps; requests to the service and other workers run in between, and a worker
may crash at any point and forget what it had in hand.
-/
namespace Zbierak.Delivery

open Outbox NetPolicy

/-- A delivery in the hands of a worker. -/
inductive Work where
  | claimed (delivery : Outbox.Delivery)
  | sending (delivery : Outbox.Delivery) (post : Post)
  | refused (delivery : Outbox.Delivery) (error : String)
  | answered (delivery : Outbox.Delivery) (answer : Answer)
  deriving DecidableEq

def Work.delivery : Work → Outbox.Delivery
  | .claimed d | .sending d _ | .refused d _ | .answered d _ => d

/-- A request that was sent for an outbox row, and what came back. -/
structure Exchange where
  rowId : Int
  post : Post
  answer : Answer
  answeredAt : Int

structure World where
  db : Db
  clock : Int
  work : List Work
  exchanges : List Exchange

inductive Label where
  | tick (seconds : Nat)
  | request (r : Server.Request)
  | claim
  | prepare (delivery : Outbox.Delivery) (resolve : Resolver)
  | answer (delivery : Outbox.Delivery) (post : Post) (answer : Answer)
  | finish (work : Work)
  | crash (work : Work)

/-- The writes that end a delivery. -/
def record (env : Crates) (now : Int) (db : Db) : Work → Option Db
  | .refused d error => some (Outbox.fail now d.id d.attempts error db)
  | .answered d answer => some (conclude env now d answer db)
  | .claimed _ | .sending _ _ => none

def prepared (env : Crates) (webhookKey : Option Bytes) (resolve : Resolver)
    (delivery : Outbox.Delivery) : Work :=
  match Outbox.request env webhookKey resolve delivery with
  | .ok post => .sending delivery post
  | .error error => .refused delivery error

def step (cfg : Server.Setup) (webhookKey : Option Bytes) (w : World) : Label → Option World
  | .tick seconds => some { w with clock := w.clock + seconds }
  | .request r => some { w with db := (Server.exec cfg w.clock w.db (.request r)).2 }
  | .claim =>
    match Outbox.claim w.clock w.db with
    | (.ok (some delivery), db) => some { w with db, work := .claimed delivery :: w.work }
    | (.ok none, db) | (.error _, db) => some { w with db }
  | .prepare delivery resolve =>
    if .claimed delivery ∈ w.work then
      some { w with
        work := prepared cfg.env webhookKey resolve delivery :: w.work.erase (.claimed delivery) }
    else none
  | .answer delivery post answer =>
    if .sending delivery post ∈ w.work then
      some { w with
        work := .answered delivery answer :: w.work.erase (.sending delivery post)
        exchanges := w.exchanges ++ [⟨delivery.id, post, answer, w.clock⟩] }
    else none
  | .finish work =>
    if work ∈ w.work then
      (record cfg.env w.clock w.db work).map fun db => { w with db, work := w.work.erase work }
    else none
  | .crash work => if work ∈ w.work then some { w with work := w.work.erase work } else none

/-- Everything that can happen, label by label. -/
inductive Moves (cfg : Server.Setup) (webhookKey : Option Bytes) (w : World) :
    Label → World → Prop where
  | tick (seconds : Nat) :
      Moves cfg webhookKey w (.tick seconds) { w with clock := w.clock + seconds }
  | request (r : Server.Request) :
      Moves cfg webhookKey w (.request r)
        { w with db := (Server.exec cfg w.clock w.db (.request r)).2 }
  | claimed (d : Outbox.Delivery) (h : (Outbox.claim w.clock w.db).1 = .ok (some d)) :
      Moves cfg webhookKey w .claim
        { w with db := (Outbox.claim w.clock w.db).2, work := .claimed d :: w.work }
  | unclaimed (h : ∀ d, (Outbox.claim w.clock w.db).1 ≠ .ok (some d)) :
      Moves cfg webhookKey w .claim { w with db := (Outbox.claim w.clock w.db).2 }
  | prepare (d : Outbox.Delivery) (resolve : Resolver) (h : .claimed d ∈ w.work) :
      Moves cfg webhookKey w (.prepare d resolve)
        { w with work := prepared cfg.env webhookKey resolve d :: w.work.erase (.claimed d) }
  | answer (d : Outbox.Delivery) (post : Post) (answer : Answer) (h : .sending d post ∈ w.work) :
      Moves cfg webhookKey w (.answer d post answer)
        { w with
          work := .answered d answer :: w.work.erase (.sending d post)
          exchanges := w.exchanges ++ [⟨d.id, post, answer, w.clock⟩] }
  | finish (k : Work) (db : Db) (h : k ∈ w.work) (hrecord : record cfg.env w.clock w.db k = some db) :
      Moves cfg webhookKey w (.finish k) { w with db, work := w.work.erase k }
  | crash (k : Work) (h : k ∈ w.work) :
      Moves cfg webhookKey w (.crash k) { w with work := w.work.erase k }

theorem step_moves {cfg : Server.Setup} {webhookKey : Option Bytes} {w w' : World} {label : Label}
    (hstep : step cfg webhookKey w label = some w') : Moves cfg webhookKey w label w' := by
  cases label with
  | tick seconds =>
    cases hstep
    exact .tick seconds
  | request r =>
    cases hstep
    exact .request r
  | claim =>
    simp only [step] at hstep
    split at hstep
    · next d db hclaim =>
      cases hstep
      obtain rfl : (Outbox.claim w.clock w.db).2 = db := congrArg Prod.snd hclaim
      exact .claimed d (congrArg Prod.fst hclaim)
    · next db hclaim =>
      cases hstep
      obtain rfl : (Outbox.claim w.clock w.db).2 = db := congrArg Prod.snd hclaim
      refine .unclaimed fun d hd => ?_
      rw [hclaim] at hd
      cases hd
    · next db hclaim =>
      cases hstep
      obtain rfl : (Outbox.claim w.clock w.db).2 = db := congrArg Prod.snd hclaim
      refine .unclaimed fun d hd => ?_
      rw [hclaim] at hd
      cases hd
  | prepare d resolve =>
    simp only [step] at hstep
    split at hstep
    · next hmem =>
      cases hstep
      exact .prepare d resolve hmem
    · cases hstep
  | answer d post answer =>
    simp only [step] at hstep
    split at hstep
    · next hmem =>
      cases hstep
      exact .answer d post answer hmem
    · cases hstep
  | finish k =>
    simp only [step] at hstep
    split at hstep
    · next hmem =>
      obtain ⟨db, hrecord, rfl⟩ := Option.map_eq_some_iff.mp hstep
      exact .finish k db hmem hrecord
    · cases hstep
  | crash k =>
    simp only [step] at hstep
    split at hstep
    · next hmem =>
      cases hstep
      exact .crash k hmem
    · cases hstep

/-- What a request of the service can do to the queue: rows go with their
endpoint, and new rows are due at once. -/
structure QueueEvolves (now : Int) (db db' : Db) : Prop where
  kept : ∀ id row, db.outbox.get? id = some row →
    db'.outbox.get? id = some row ∨ db'.endpoints.get? row.endpointId = none
  rows : ∀ id row, db'.outbox.get? id = some row → db.outbox.get? id = some row ∨
    (db.outbox.seq < id ∧ row.deliveredAt = none ∧ row.lockedAt = none ∧ row.availableAt = now ∧
      ∃ e, db'.endpoints.get? row.endpointId = some e)
  endpoints : ∀ id e, db.endpoints.get? id = some e → db'.endpoints.get? id = some e ∨
    (db'.endpoints.get? id = none ∧ ∀ rowId row, db'.outbox.get? rowId = some row →
      row.endpointId ≠ id)
  gone : ∀ id ≤ db.endpoints.seq, db.endpoints.get? id = none → db'.endpoints.get? id = none
  outboxSeq : db.outbox.seq ≤ db'.outbox.seq
  endpointsSeq : db.endpoints.seq ≤ db'.endpoints.seq

theorem QueueEvolves.of_same {now : Int} {db db' : Db} (h : Server.SameQueue db db') :
    QueueEvolves now db db' where
  kept id row hrow := .inl (by rw [h.outbox]; exact hrow)
  rows id row hrow := .inl (by rw [← h.outbox]; exact hrow)
  endpoints id e he := .inl (by rw [h.endpoints]; exact he)
  gone id _ he := by rw [h.endpoints]; exact he
  outboxSeq := by rw [h.outbox]
  endpointsSeq := by rw [h.endpoints]

theorem QueueEvolves.of_added {now : Int} {db db' : Db} (e : Endpoint)
    (hendpoints : db'.endpoints = db.endpoints.insert e) (houtbox : db'.outbox = db.outbox) :
    QueueEvolves now db db' where
  kept id row hrow := .inl (by rw [houtbox]; exact hrow)
  rows id row hrow := .inl (by rw [← houtbox]; exact hrow)
  endpoints id x hx := by
    have := db.endpoints.le_seq_of_get? hx
    refine .inl ?_
    rw [hendpoints, Table.get?_insert, if_neg (by simp only [Table.nextId]; omega)]
    exact hx
  gone id hid hx := by
    rw [hendpoints, Table.get?_insert, if_neg (by simp only [Table.nextId]; omega)]
    exact hx
  outboxSeq := by rw [houtbox]
  endpointsSeq := by
    rw [hendpoints, Table.seq_insert]
    omega

theorem QueueEvolves.of_removed {now : Int} {db db' : Db} (endpointId : Int)
    (hendpoints : db'.endpoints = db.endpoints.delete fun id _ => id = endpointId)
    (houtbox : db'.outbox = db.outbox.delete fun _ row => row.endpointId = endpointId) :
    QueueEvolves now db db' where
  kept id row hrow := by
    rw [houtbox, hendpoints, Table.get?_delete, Table.get?_delete, hrow]
    by_cases h : row.endpointId = endpointId <;> simp [h]
  rows id row hrow := by
    rw [houtbox, Table.get?_delete, Option.filter_eq_some_iff] at hrow
    exact .inl hrow.1
  endpoints id e he := by
    by_cases h : id = endpointId
    · refine .inr ⟨by simp [hendpoints, h], fun rowId row hrow => ?_⟩
      rw [houtbox, Table.get?_delete, Option.filter_eq_some_iff] at hrow
      simpa [h] using hrow.2
    · exact .inl (by simp [hendpoints, he, h])
  gone id _ hx := by simp [hendpoints, hx]
  outboxSeq := by rw [houtbox, Table.seq_delete]
  endpointsSeq := by rw [hendpoints, Table.seq_delete]

theorem QueueEvolves.of_batch {now : Int} {db db' : Db} {rows : List OutboxRow}
    (houtbox : db'.outbox = db.outbox.insertAll rows) (hendpoints : db'.endpoints = db.endpoints)
    (hrows : ∀ row ∈ rows, row.deliveredAt = none ∧ row.lockedAt = none ∧ row.availableAt = now ∧
      ∃ e, db.endpoints.get? row.endpointId = some e) : QueueEvolves now db db' where
  kept id row hrow := .inl (by rw [houtbox]; exact db.outbox.get?_insertAll_of_some rows hrow)
  rows id row hrow := by
    rw [houtbox] at hrow
    rcases db.outbox.get?_insertAll_cases rows hrow with hold | ⟨hlt, hmem⟩
    · exact .inl hold
    · rw [hendpoints]
      exact .inr ⟨hlt, hrows row hmem⟩
  endpoints id e he := .inl (by rw [hendpoints]; exact he)
  gone id _ he := by rw [hendpoints]; exact he
  outboxSeq := by
    rw [houtbox, Table.seq_insertAll]
    omega
  endpointsSeq := by rw [hendpoints]

/-- Queued notifications are due at once and go to endpoints that exist. -/
theorem mem_batch {env : Crates} {publicUrl : Option String} {endpoints : Table Endpoint}
    {req : Ingest.IngestProject} {issueId now : Int} {p : Ingest.Prepared}
    {kind : Ingest.NotificationKind} {row : OutboxRow}
    (h : row ∈ Ingest.batch env publicUrl endpoints req issueId p now kind) :
    row.deliveredAt = none ∧ row.lockedAt = none ∧ row.availableAt = now ∧
      ∃ e, endpoints.get? row.endpointId = some e := by
  obtain ⟨endpointId, hmem, rfl⟩ := List.mem_map.mp h
  obtain ⟨⟨id, e⟩, he, rfl⟩ := List.mem_map.mp hmem
  exact ⟨rfl, rfl, rfl, e, (endpoints.mem_select _).mp he |>.1⟩

theorem queueEvolves_request (cfg : Server.Setup) (now : Int) (db : Db) (r : Server.Request) :
    QueueEvolves now db (Server.exec cfg now db (.request r)).2 := by
  have hchange := Server.exec_change cfg now db (.request r)
  generalize hop : Server.Op.request r = op at hchange
  generalize Server.exec cfg now db op = result at hchange ⊢
  cases hchange with
  | account _ hqueue => exact .of_same hqueue
  | timeline _ _ _ _ _ hqueue => exact .of_same hqueue
  | status projectId issueId userId status i hi hne hdb =>
    rw [hdb]
    exact .of_same ⟨rfl, rfl⟩
  | endpointAdded e hendpoints houtbox => exact .of_added e hendpoints houtbox
  | endpointRemoved endpointId hendpoints houtbox => exact .of_removed endpointId hendpoints houtbox
  | delivery => cases hop
  | accepted req body storageId p =>
    dsimp only [Ingest.accepted]
    cases hkind : Ingest.kindOf req p db.issues with
    | none => exact .of_same ⟨rfl, rfl⟩
    | some kind => exact .of_batch rfl rfl fun row hrow => mem_batch hrow

/-- A delivery in hand is about its row, as long as the row is there. -/
def Agrees (db : Db) (d : Outbox.Delivery) : Prop :=
  d.id ≤ db.outbox.seq ∧ ∀ row, db.outbox.get? d.id = some row →
    row.payloadJson = d.payloadJson ∧
      ∃ e, db.endpoints.get? row.endpointId = some e ∧ e.url = d.url

/-- The payload of the row was posted to the endpoint of the row. -/
def Exchange.About (x : Exchange) (d : Outbox.Delivery) : Prop :=
  x.rowId = d.id ∧ x.post.body = d.payloadJson ∧ x.post.url = d.url

/-- What is known of a delivery at each stage. -/
def Backed (exchanges : List Exchange) (now : Int) : Work → Prop
  | .claimed _ | .refused _ _ => True
  | .sending d post => post.body = d.payloadJson ∧ post.url = d.url
  | .answered d answer => ∃ x ∈ exchanges, x.About d ∧ x.answer = answer ∧ x.answeredAt ≤ now

def Answer.Success (answer : Answer) : Prop := ∃ status, answer = .ok status ∧ isSuccess status = true

/-- A delivered row was answered with success. -/
def Answered (w : World) (id : Int) (row : OutboxRow) : Prop :=
  ∀ at_ ∈ row.deliveredAt, ∃ x ∈ w.exchanges, x.rowId = id ∧ x.post.body = row.payloadJson ∧
    (∃ e, w.db.endpoints.get? row.endpointId = some e ∧ x.post.url = e.url) ∧
    Answer.Success x.answer ∧ x.answeredAt ≤ at_

structure Inv (w : World) : Prop where
  endpoint : ∀ id row, w.db.outbox.get? id = some row →
    ∃ e, w.db.endpoints.get? row.endpointId = some e
  locked : ∀ id row, w.db.outbox.get? id = some row → ∀ at_ ∈ row.lockedAt, at_ ≤ w.clock
  available : ∀ id row, w.db.outbox.get? id = some row → row.availableAt ≤ w.clock + 86400
  answered : ∀ id row, w.db.outbox.get? id = some row → Answered w id row
  agrees : ∀ k ∈ w.work, Agrees w.db k.delivery
  backed : ∀ k ∈ w.work, Backed w.exchanges w.clock k

theorem retryDelay_le (attempts : Int) : retryDelay attempts ≤ 86400 := by
  unfold retryDelay
  split
  · exact Int.le_refl _
  · exact Int.le_trans (Int.min_le_right _ _) (by decide)

theorem failureText_eq_none {env : Crates} {answer : Answer} :
    failureText env answer = none ↔ Answer.Success answer := by
  cases answer with
  | error e => simp [failureText, Answer.Success]
  | ok status => simp [failureText, Answer.Success]

/-- A prepared request carries the payload to the URL of the delivery. -/
theorem prepared_backed (env : Crates) (webhookKey : Option Bytes) (resolve : Resolver)
    (d : Outbox.Delivery) (exchanges : List Exchange) (now : Int) :
    (prepared env webhookKey resolve d).delivery = d ∧
      Backed exchanges now (prepared env webhookKey resolve d) := by
  unfold prepared
  cases h : Outbox.request env webhookKey resolve d with
  | error e => exact ⟨rfl, trivial⟩
  | ok post => exact ⟨rfl, request_ok h⟩

theorem Backed.mono {exchanges : List Exchange} {now : Int} {k : Work} (h : Backed exchanges now k)
    {later : List Exchange} {now' : Int} (hnow : now ≤ now') :
    Backed (exchanges ++ later) now' k := by
  cases k with
  | claimed d => trivial
  | refused d error => trivial
  | sending d post => exact h
  | answered d answer =>
    obtain ⟨x, hx, habout, hanswer, hat⟩ := h
    exact ⟨x, List.mem_append_left _ hx, habout, hanswer, Int.le_trans hat hnow⟩

theorem Agrees.evolve {now : Int} {db db' : Db} {d : Outbox.Delivery}
    (h : QueueEvolves now db db') (hd : Agrees db d) : Agrees db' d := by
  refine ⟨Int.le_trans hd.1 h.outboxSeq, fun row hrow => ?_⟩
  rcases h.rows _ row hrow with hold | ⟨hlt, -⟩
  · obtain ⟨hpayload, e, he, hurl⟩ := hd.2 row hold
    rcases h.endpoints _ e he with he' | ⟨-, hnone⟩
    · exact ⟨hpayload, e, he', hurl⟩
    · exact absurd rfl (hnone _ row hrow)
  · have := hd.1
    omega

theorem Answered.evolve {w : World} {db' : Db} {id : Int} {row : OutboxRow}
    (h : QueueEvolves w.clock w.db db') (hrow : db'.outbox.get? id = some row)
    (ha : Answered w id row) : Answered { w with db := db' } id row := by
  intro at_ hat
  obtain ⟨x, hx, hid, hbody, ⟨e, he, hurl⟩, hsuccess, htime⟩ := ha at_ hat
  rcases h.endpoints _ e he with he' | ⟨-, hnone⟩
  · exact ⟨x, hx, hid, hbody, ⟨e, he', hurl⟩, hsuccess, htime⟩
  · exact absurd rfl (hnone _ row hrow)

/-- A request keeps the invariant. -/
theorem Inv.evolve {w : World} {db' : Db} (h : Inv w) (hq : QueueEvolves w.clock w.db db') :
    Inv { w with db := db' } where
  endpoint id row hrow := by
    rcases hq.rows id row hrow with hold | ⟨-, -, -, -, he⟩
    · obtain ⟨e, he⟩ := h.endpoint id row hold
      rcases hq.endpoints _ e he with he' | ⟨-, hnone⟩
      · exact ⟨e, he'⟩
      · exact absurd rfl (hnone _ row hrow)
    · exact he
  locked id row hrow at_ hat := by
    rcases hq.rows id row hrow with hold | ⟨-, -, hlocked, -⟩
    · exact h.locked id row hold at_ hat
    · rw [hlocked] at hat
      cases hat
  available id row hrow := by
    rcases hq.rows id row hrow with hold | ⟨-, -, -, havailable, -⟩
    · exact h.available id row hold
    · dsimp only
      omega
  answered id row hrow := by
    rcases hq.rows id row hrow with hold | ⟨-, hdelivered, -⟩
    · exact Answered.evolve hq hrow (h.answered id row hold)
    · intro at_ hat
      rw [hdelivered] at hat
      cases hat
  agrees k hk := (h.agrees k hk).evolve hq
  backed := h.backed

theorem get?_rewrite {outbox : Table OutboxRow} {id : Int} {f : OutboxRow → OutboxRow} {j : Int}
    {row' : OutboxRow} (h : (outbox.update (fun i _ => i = id) f).get? j = some row') :
    ∃ row, outbox.get? j = some row ∧ row' = if j = id then f row else row := by
  rw [Table.get?_update] at h
  obtain ⟨row, hrow, rfl⟩ := Option.map_eq_some_iff.mp h
  exact ⟨row, hrow, by simp⟩

/-- A worker's write to one row keeps the invariant when the new row meets it. -/
theorem Inv.rewrite {w : World} (h : Inv w) {id : Int} {f : OutboxRow → OutboxRow}
    (hf : ∀ row, (f row).endpointId = row.endpointId ∧ (f row).payloadJson = row.payloadJson)
    (hnew : ∀ row, w.db.outbox.get? id = some row →
      (∀ at_ ∈ (f row).lockedAt, at_ ≤ w.clock) ∧ (f row).availableAt ≤ w.clock + 86400 ∧
        Answered w id (f row)) :
    Inv { w with db := { w.db with outbox := w.db.outbox.update (fun i _ => i = id) f } } where
  endpoint j row' hrow' := by
    obtain ⟨row, hrow, rfl⟩ := get?_rewrite hrow'
    split
    · rw [(hf row).1]
      exact h.endpoint j row hrow
    · exact h.endpoint j row hrow
  locked j row' hrow' := by
    obtain ⟨row, hrow, rfl⟩ := get?_rewrite hrow'
    split
    · next hj => exact (hnew row (hj ▸ hrow)).1
    · exact h.locked j row hrow
  available j row' hrow' := by
    obtain ⟨row, hrow, rfl⟩ := get?_rewrite hrow'
    split
    · next hj => exact (hnew row (hj ▸ hrow)).2.1
    · exact h.available j row hrow
  answered j row' hrow' := by
    obtain ⟨row, hrow, rfl⟩ := get?_rewrite hrow'
    split
    · next hj =>
      subst hj
      exact (hnew row hrow).2.2
    · exact h.answered j row hrow
  agrees k hk := by
    refine ⟨(h.agrees k hk).1, fun row' hrow' => ?_⟩
    obtain ⟨row, hrow, rfl⟩ := get?_rewrite hrow'
    have hagree := (h.agrees k hk).2 row hrow
    split
    · rw [(hf row).1, (hf row).2]
      exact hagree
    · exact hagree
  backed := h.backed

/-- Work that a worker takes up or puts down. -/
theorem Inv.work {w : World} (h : Inv w) {work : List Work}
    (hwork : ∀ k ∈ work, k ∈ w.work ∨ (Agrees w.db k.delivery ∧ Backed w.exchanges w.clock k)) :
    Inv { w with work } where
  endpoint := h.endpoint
  locked := h.locked
  available := h.available
  answered := h.answered
  agrees k hk := (hwork k hk).elim (h.agrees k) And.left
  backed k hk := (hwork k hk).elim (h.backed k) And.right

theorem Inv.tick {w : World} (h : Inv w) (seconds : Nat) :
    Inv { w with clock := w.clock + seconds } where
  endpoint := h.endpoint
  locked id row hrow at_ hat := by
    have := h.locked id row hrow at_ hat
    dsimp only
    omega
  available id row hrow := by
    have := h.available id row hrow
    dsimp only
    omega
  answered := h.answered
  agrees := h.agrees
  backed k hk := by
    have hmono : Backed (w.exchanges ++ []) (w.clock + seconds) k := (h.backed k hk).mono (by omega)
    rwa [List.append_nil] at hmono

/-- A new answer takes nothing away. -/
theorem Inv.exchange {w : World} (h : Inv w) (x : Exchange) :
    Inv { w with exchanges := w.exchanges ++ [x] } where
  endpoint := h.endpoint
  locked := h.locked
  available := h.available
  answered id row hrow at_ hat := by
    obtain ⟨y, hy, hrest⟩ := h.answered id row hrow at_ hat
    exact ⟨y, List.mem_append_left _ hy, hrest⟩
  agrees := h.agrees
  backed k hk := (h.backed k hk).mono (Int.le_refl _)

theorem Inv.claim {w : World} (h : Inv w) (id : Int) :
    Inv { w with
      db := { w.db with outbox := w.db.outbox.update (fun i _ => i = id) (lockRow w.clock) } } := by
  refine h.rewrite (fun _ => ⟨rfl, rfl⟩) fun row' hrow' => ⟨?_, h.available id row' hrow', ?_⟩
  · rintro at_ hat
    cases hat
    exact Int.le_refl _
  · exact h.answered id row' hrow'

theorem Inv.fail {w : World} (h : Inv w) (id attempts : Int) (error : String) :
    Inv { w with db := Outbox.fail w.clock id attempts error w.db } := by
  refine h.rewrite (fun _ => ⟨rfl, rfl⟩) fun row hrow => ⟨?_, ?_, h.answered id row hrow⟩
  · rintro at_ ⟨⟩
  · have := retryDelay_le attempts
    simp only [rescheduleRow]
    omega

theorem Inv.markDelivered {w : World} (h : Inv w) {d : Outbox.Delivery} {x : Exchange}
    (hagrees : Agrees w.db d) (hx : x ∈ w.exchanges) (habout : x.About d)
    (hsuccess : Answer.Success x.answer) (htime : x.answeredAt ≤ w.clock) :
    Inv { w with db := Outbox.markDelivered w.clock d.id w.db } := by
  refine h.rewrite (fun _ => ⟨rfl, rfl⟩) fun row hrow => ⟨?_, h.available d.id row hrow, ?_⟩
  · rintro at_ ⟨⟩
  · rintro at_ hat
    cases hat
    obtain ⟨hpayload, e, he, hurl⟩ := hagrees.2 row hrow
    exact ⟨x, hx, habout.1, habout.2.1.trans hpayload.symm, ⟨e, he, habout.2.2.trans hurl.symm⟩,
      hsuccess, htime⟩

/-- A claimed delivery is about the row it was claimed from. -/
theorem agrees_claim {now : Int} {db : Db} {d : Outbox.Delivery}
    (h : (Outbox.claim now db).1 = .ok (some d)) : Agrees (Outbox.claim now db).2 d := by
  rcases claim_cases now db with ⟨hnone, -⟩ | ⟨id, row, hrow, -, hdb, hd⟩
  · rw [hnone] at h
    cases h
  · rw [hd] at h
    split at h
    · next e he =>
      cases h
      rw [hdb]
      refine ⟨db.outbox.le_seq_of_get? hrow, fun row' hrow' => ?_⟩
      obtain ⟨row'', hrow'', rfl⟩ := get?_rewrite hrow'
      obtain rfl : row = row'' := by simpa [hrow] using hrow''
      simpa [lockRow] using ⟨e, he, rfl⟩
    · cases h

theorem Inv.step_claim {w : World} (h : Inv w) :
    Inv { w with db := (Outbox.claim w.clock w.db).2 } := by
  rcases claim_cases w.clock w.db with ⟨hnone, -⟩ | ⟨id, row, -, -, hdb, -⟩
  · rw [hnone]
    exact h
  · rw [hdb]
    exact h.claim id

theorem Inv.record {w : World} (h : Inv w) {env : Crates} {k : Work} {db : Db} (hk : k ∈ w.work)
    (hrecord : record env w.clock w.db k = some db) : Inv { w with db } := by
  cases k with
  | claimed d => cases hrecord
  | sending d post => cases hrecord
  | refused d error =>
    cases hrecord
    exact h.fail d.id d.attempts error
  | answered d answer =>
    cases hrecord
    unfold conclude
    split
    · next hsuccess =>
      obtain ⟨x, hx, habout, rfl, htime⟩ := h.backed _ hk
      exact h.markDelivered (h.agrees _ hk) hx habout (failureText_eq_none.mp hsuccess) htime
    · next error _ => exact h.fail d.id d.attempts error

theorem Inv.step {cfg : Server.Setup} {webhookKey : Option Bytes} {w w' : World} {label : Label}
    (h : Inv w) (hstep : step cfg webhookKey w label = some w') : Inv w' := by
  cases step_moves hstep with
  | tick seconds => exact h.tick seconds
  | request r => exact h.evolve (queueEvolves_request cfg w.clock w.db r)
  | claimed d hclaim =>
    refine h.step_claim.work fun k hk => ?_
    rcases List.mem_cons.mp hk with rfl | hk
    · exact .inr ⟨agrees_claim hclaim, trivial⟩
    · exact .inl hk
  | unclaimed _ => exact h.step_claim
  | prepare d resolve hmem =>
    obtain ⟨hdelivery, hbacked⟩ := prepared_backed cfg.env webhookKey resolve d w.exchanges w.clock
    refine h.work fun k hk => ?_
    rcases List.mem_cons.mp hk with rfl | hk
    · exact .inr ⟨by rw [hdelivery]; exact h.agrees _ hmem, hbacked⟩
    · exact .inl (List.mem_of_mem_erase hk)
  | answer d post answer hmem =>
    have hagrees : Agrees w.db d := h.agrees _ hmem
    obtain ⟨hbody, hurl⟩ := h.backed _ hmem
    refine (h.exchange ⟨d.id, post, answer, w.clock⟩).work fun k hk => ?_
    rcases List.mem_cons.mp hk with rfl | hk
    · exact .inr ⟨hagrees, _, List.mem_append_right _ List.mem_cons_self, ⟨rfl, hbody, hurl⟩, rfl,
        Int.le_refl _⟩
    · exact .inl (List.mem_of_mem_erase hk)
  | finish k db hmem hrecord =>
    exact (h.record hmem hrecord).work fun j hj => .inl (List.mem_of_mem_erase hj)
  | crash k _ => exact h.work fun j hj => .inl (List.mem_of_mem_erase hj)

end Zbierak.Delivery
