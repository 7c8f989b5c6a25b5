import Zbierak.Delivery

/-!
# What deliveries guarantee over runs

Rows are only rewritten by a claim or by the end of a delivery, and a row that
nobody rewrites becomes due. Everything else follows from the invariant.
-/
namespace Zbierak.Delivery

open Outbox

/-- The label rewrites this row. -/
def Touches (w : World) (id : Int) : Label → Prop
  | .claim => ∃ d, (Outbox.claim w.clock w.db).1 = .ok (some d) ∧ d.id = id
  | .finish work => work.delivery.id = id
  | .tick _ | .request _ | .prepare _ _ | .answer _ _ _ | .crash _ => False

/-- What a step can do to the queue. -/
theorem step_queue {cfg : Server.Setup} {webhookKey : Option Bytes} {w w' : World} {label : Label}
    (h : Inv w) (hstep : step cfg webhookKey w label = some w') :
    QueueEvolves w.clock w.db w'.db ∨ ∃ id f, Touches w id label ∧
      (∀ row, (f row).endpointId = row.endpointId ∧
        (row.deliveredAt ≠ none → (f row).deliveredAt ≠ none)) ∧
      w'.db = { w.db with outbox := w.db.outbox.update (fun i _ => i = id) f } := by
  cases step_moves hstep with
  | tick seconds => exact .inl (.of_same ⟨rfl, rfl⟩)
  | request r => exact .inl (queueEvolves_request cfg w.clock w.db r)
  | claimed d hclaim =>
    rcases claim_cases w.clock w.db with ⟨hnone, -⟩ | ⟨id, row, hrow, -, hlock, hreply⟩
    · rw [hnone] at hclaim
      cases hclaim
    · obtain ⟨e, he⟩ := h.endpoint id row hrow
      rw [he] at hreply
      exact .inr ⟨id, lockRow w.clock, ⟨_, hreply, rfl⟩, fun _ => ⟨rfl, fun h => h⟩, hlock⟩
  | unclaimed hnone =>
    rcases claim_cases w.clock w.db with ⟨hsame, -⟩ | ⟨id, row, hrow, -, -, hreply⟩
    · dsimp only
      rw [hsame]
      exact .inl (.of_same ⟨rfl, rfl⟩)
    · obtain ⟨e, he⟩ := h.endpoint id row hrow
      rw [he] at hreply
      exact absurd hreply (hnone _)
  | prepare | answer | crash => exact .inl (.of_same ⟨rfl, rfl⟩)
  | finish k db _ hrecord =>
    cases k with
    | claimed d => cases hrecord
    | sending d post => cases hrecord
    | refused d error =>
      cases hrecord
      exact .inr ⟨d.id, rescheduleRow w.clock d.attempts error, rfl, fun _ => ⟨rfl, fun h => h⟩, rfl⟩
    | answered d answer =>
      cases hrecord
      unfold conclude
      split
      · exact .inr ⟨d.id, completeRow w.clock, rfl, fun _ => ⟨rfl, fun _ => by simp [completeRow]⟩,
          rfl⟩
      · next error _ =>
        exact .inr ⟨d.id, rescheduleRow w.clock d.attempts error, rfl, fun _ => ⟨rfl, fun h => h⟩,
          rfl⟩

/-- What later stores owe to an earlier one: rows stay, or are gone for good
together with their endpoint, and delivered rows stay delivered. -/
structure Follows (db db' : Db) : Prop where
  row : ∀ id row, db.outbox.get? id = some row →
    (∃ row', db'.outbox.get? id = some row' ∧ row'.endpointId = row.endpointId ∧
      (row.deliveredAt ≠ none → row'.deliveredAt ≠ none)) ∨
    (db'.outbox.get? id = none ∧ row.endpointId ≤ db'.endpoints.seq ∧
      db'.endpoints.get? row.endpointId = none)
  rowGone : ∀ id ≤ db.outbox.seq, db.outbox.get? id = none → db'.outbox.get? id = none
  endpointGone : ∀ id ≤ db.endpoints.seq, db.endpoints.get? id = none → db'.endpoints.get? id = none
  outboxSeq : db.outbox.seq ≤ db'.outbox.seq
  endpointsSeq : db.endpoints.seq ≤ db'.endpoints.seq

theorem Follows.refl (db : Db) : Follows db db where
  row _ row hrow := .inl ⟨row, hrow, rfl, fun h => h⟩
  rowGone _ _ h := h
  endpointGone _ _ h := h
  outboxSeq := Int.le_refl _
  endpointsSeq := Int.le_refl _

theorem Follows.trans {a b c : Db} (hab : Follows a b) (hbc : Follows b c) : Follows a c where
  row id row hrow := by
    rcases hab.row id row hrow with ⟨row₁, hrow₁, hendpoint, hdelivered⟩ | ⟨hnone, hle, hgone⟩
    · rcases hbc.row id row₁ hrow₁ with ⟨row₂, hrow₂, hendpoint', hdelivered'⟩ | hgone
      · exact .inl ⟨row₂, hrow₂, hendpoint'.trans hendpoint, fun h => hdelivered' (hdelivered h)⟩
      · rw [hendpoint] at hgone
        exact .inr hgone
    · have hid : id ≤ b.outbox.seq := Int.le_trans (a.outbox.le_seq_of_get? hrow) hab.outboxSeq
      exact .inr ⟨hbc.rowGone id hid hnone, Int.le_trans hle hbc.endpointsSeq,
        hbc.endpointGone _ hle hgone⟩
  rowGone id hid h := hbc.rowGone id (Int.le_trans hid hab.outboxSeq) (hab.rowGone id hid h)
  endpointGone id hid h :=
    hbc.endpointGone id (Int.le_trans hid hab.endpointsSeq) (hab.endpointGone id hid h)
  outboxSeq := Int.le_trans hab.outboxSeq hbc.outboxSeq
  endpointsSeq := Int.le_trans hab.endpointsSeq hbc.endpointsSeq

/-- A row that a request removes loses its endpoint. -/
theorem QueueEvolves.removed {now : Int} {db db' : Db} (h : QueueEvolves now db db') {id : Int}
    {row : OutboxRow} (hrow : db.outbox.get? id = some row) {e : Endpoint}
    (he : db.endpoints.get? row.endpointId = some e) :
    db'.outbox.get? id = some row ∨
      (db'.outbox.get? id = none ∧ db'.endpoints.get? row.endpointId = none) := by
  rcases h.kept id row hrow with hkept | hgone
  · exact .inl hkept
  · refine .inr ⟨?_, hgone⟩
    rcases h.endpoints _ e he with he' | ⟨-, hnone⟩
    · rw [he'] at hgone
      cases hgone
    · cases hrow' : db'.outbox.get? id with
      | none => rfl
      | some row' =>
        rcases h.rows id row' hrow' with hold | ⟨hlt, -⟩
        · obtain rfl : row = row' := by simpa [hrow] using hold
          exact absurd rfl (hnone id row hrow')
        · have := db.outbox.le_seq_of_get? hrow
          omega

theorem step_follows {cfg : Server.Setup} {webhookKey : Option Bytes} {w w' : World} {label : Label}
    (h : Inv w) (hstep : step cfg webhookKey w label = some w') : Follows w.db w'.db := by
  rcases step_queue h hstep with hq | ⟨id, f, -, hf, hdb⟩
  · refine ⟨fun id row hrow => ?_, fun id hid hnone => ?_, hq.gone, hq.outboxSeq, hq.endpointsSeq⟩
    · obtain ⟨e, he⟩ := h.endpoint id row hrow
      rcases hq.removed hrow he with hkept | ⟨hnone, hgone⟩
      · exact .inl ⟨row, hkept, rfl, fun h => h⟩
      · exact .inr ⟨hnone, Int.le_trans (w.db.endpoints.le_seq_of_get? he) hq.endpointsSeq, hgone⟩
    · cases hrow : w'.db.outbox.get? id with
      | none => rfl
      | some row =>
        rcases hq.rows id row hrow with hold | ⟨hlt, -⟩
        · rw [hnone] at hold
          cases hold
        · omega
  · rw [hdb]
    refine ⟨fun j row hrow => .inl ⟨if j = id then f row else row, by simp [hrow], ?_⟩,
      fun j _ hnone => by simp [hnone], fun _ _ h => h, Int.le_refl _, Int.le_refl _⟩
    split
    · exact hf row
    · exact ⟨rfl, fun h => h⟩

variable {cfg : Server.Setup} {webhookKey : Option Bytes}

theorem run_follows {labels : List Label} {w w' : World} (h : Inv w)
    (hr : Runs.run (step cfg webhookKey) labels w = some w') : Follows w.db w'.db :=
  Runs.run_relation_of (I := Inv) (R := fun w w' => Follows w.db w'.db) (fun w => .refl w.db)
    (fun _ _ _ hab hbc => hab.trans hbc) (fun _ _ _ h hstep => h.step hstep)
    (fun _ _ _ h hstep => step_follows h hstep) hr h

/-- A row that no step of a run rewrites is unchanged or gone. -/
theorem run_untouched {labels : List Label} {w w' : World} {id : Int} {row : OutboxRow} (h : Inv w)
    (hrow : w.db.outbox.get? id = some row)
    (hr : Runs.run (step cfg webhookKey) labels w = some w')
    (huntouched : Runs.Along (step cfg webhookKey) (fun w label => ¬ Touches w id label) labels w) :
    w'.db.outbox.get? id = some row ∨ w'.db.outbox.get? id = none := by
  have hkeep : ∀ s a t, (Inv s ∧ id ≤ s.db.outbox.seq ∧
        (s.db.outbox.get? id = some row ∨ s.db.outbox.get? id = none)) →
      ¬ Touches s id a → step cfg webhookKey s a = some t →
      Inv t ∧ id ≤ t.db.outbox.seq ∧
        (t.db.outbox.get? id = some row ∨ t.db.outbox.get? id = none) := by
    rintro s a t ⟨hs, hid, hrow⟩ huntouched hstep
    have hfollows := step_follows hs hstep
    refine ⟨hs.step hstep, Int.le_trans hid hfollows.outboxSeq, ?_⟩
    rcases hrow with hrow | hnone
    · rcases step_queue hs hstep with hq | ⟨j, f, htouch, -, hdb⟩
      · obtain ⟨e, he⟩ := hs.endpoint id row hrow
        exact (hq.removed hrow he).imp_right And.left
      · have hne : id ≠ j := by
          rintro rfl
          exact huntouched htouch
        exact .inl (by simp [hdb, hrow, hne])
    · exact .inr (hfollows.rowGone id hid hnone)
  exact (Runs.along_invariant hkeep hr huntouched
    ⟨h, w.db.outbox.le_seq_of_get? hrow, .inl hrow⟩).2.2

theorem claimable_iff {row : OutboxRow} {now : Int} : claimable row now = true ↔
    row.deliveredAt = none ∧ row.availableAt ≤ now ∧ ∀ at_ ∈ row.lockedAt, at_ + 61 ≤ now := by
  unfold claimable
  cases row.lockedAt with
  | none => simp
  | some at_ =>
    simp only [reduceCtorEq, Option.any_some, decide_eq_true_eq, false_or, Option.mem_def,
      Option.some.injEq, forall_eq']
    refine and_congr_right fun _ => and_congr_right fun _ => ?_
    omega

/-- A claim returns rows that are due. -/
theorem claimed_row {now : Int} {db : Db} {d : Outbox.Delivery}
    (h : (Outbox.claim now db).1 = .ok (some d)) :
    ∃ row, db.outbox.get? d.id = some row ∧ claimable row now = true := by
  rcases claim_cases now db with ⟨hnone, -⟩ | ⟨id, row, hrow, hdue, -, hreply⟩
  · rw [hnone] at h
    cases h
  · rw [hreply] at h
    split at h
    · cases h
      exact ⟨row, hrow, hdue⟩
    · cases h

/-- What deliveries guarantee of a state and of every run that starts there. -/
structure Guarantees (cfg : Server.Setup) (webhookKey : Option Bytes) (w : World) : Prop where
  /-- A row is marked delivered after a 2xx answer to its payload from its endpoint. -/
  answered : ∀ id row at_, w.db.outbox.get? id = some row → row.deliveredAt = some at_ →
    ∃ x ∈ w.exchanges, x.rowId = id ∧ x.post.body = row.payloadJson ∧
      (∃ e, w.db.endpoints.get? row.endpointId = some e ∧ x.post.url = e.url) ∧
      Answer.Success x.answer ∧ x.answeredAt ≤ at_
  /-- A delivered row stays delivered and is not claimed again. -/
  settled : ∀ id row, w.db.outbox.get? id = some row → row.deliveredAt ≠ none →
    ∀ labels w', Runs.run (step cfg webhookKey) labels w = some w' →
      (∀ d, (Outbox.claim w'.clock w'.db).1 = .ok (some d) → d.id ≠ id) ∧
      ∀ row', w'.db.outbox.get? id = some row' → row'.deliveredAt ≠ none
  /-- A row disappears only with its endpoint. -/
  kept : ∀ id row, w.db.outbox.get? id = some row →
    (∃ e, w.db.endpoints.get? row.endpointId = some e) ∧
    ∀ labels w', Runs.run (step cfg webhookKey) labels w = some w' →
      w'.db.outbox.get? id = none → w'.db.endpoints.get? row.endpointId = none
  timely : ∀ id row, w.db.outbox.get? id = some row →
    (∀ at_ ∈ row.lockedAt, at_ ≤ w.clock) ∧ row.availableAt ≤ w.clock + 86400
  /-- An undelivered row that no claim and no end of a delivery rewrites is
  claimable once it is available and its lock is 61 seconds old. -/
  due : ∀ id row, w.db.outbox.get? id = some row → row.deliveredAt = none →
    ∀ labels w', Runs.run (step cfg webhookKey) labels w = some w' →
      Runs.Along (step cfg webhookKey) (fun w label => ¬ Touches w id label) labels w →
      ∀ row', w'.db.outbox.get? id = some row' → row.availableAt ≤ w'.clock →
        (∀ at_ ∈ row.lockedAt, at_ + 61 ≤ w'.clock) → claimable row' w'.clock = true

theorem Inv.guarantees {w : World} (h : Inv w) : Guarantees cfg webhookKey w where
  answered id row at_ hrow hat := h.answered id row hrow at_ hat
  settled id row hrow hdelivered labels w' hr := by
    have hrow' := (run_follows h hr).row id row hrow
    refine ⟨fun d hclaim hid => ?_, fun row' hget => ?_⟩
    · subst hid
      obtain ⟨row'', hget, hdue⟩ := claimed_row hclaim
      rcases hrow' with ⟨row', hget', -, hsettled⟩ | ⟨hnone, -⟩
      · obtain rfl : row' = row'' := by simpa [hget'] using hget
        exact hsettled hdelivered (claimable_iff.mp hdue).1
      · rw [hnone] at hget
        cases hget
    · rcases hrow' with ⟨row'', hget', -, hsettled⟩ | ⟨hnone, -⟩
      · obtain rfl : row'' = row' := by simpa [hget'] using hget
        exact hsettled hdelivered
      · rw [hnone] at hget
        cases hget
  kept id row hrow := by
    refine ⟨h.endpoint id row hrow, fun labels w' hr hnone => ?_⟩
    rcases (run_follows h hr).row id row hrow with ⟨row', hget, -⟩ | ⟨-, -, hgone⟩
    · rw [hnone] at hget
      cases hget
    · exact hgone
  timely id row hrow := ⟨h.locked id row hrow, h.available id row hrow⟩
  due id row hrow hdelivered labels w' hr huntouched row' hrow' havailable hlocked := by
    rcases run_untouched h hrow hr huntouched with hsame | hnone
    · obtain rfl : row = row' := by simpa [hsame] using hrow'
      exact claimable_iff.mpr ⟨hdelivered, havailable, hlocked⟩
    · rw [hnone] at hrow'
      cases hrow'

/-- A fresh installation: nothing is stored, in hand or sent. -/
def Fresh (w : World) : Prop := w.db = Db.empty ∧ w.work = [] ∧ w.exchanges = []

theorem Fresh.inv {w : World} (h : Fresh w) : Inv w := by
  obtain ⟨hdb, hwork, hexchanges⟩ := h
  constructor <;> simp [hdb, hwork, Db.empty]

theorem delivery_guarantees {w : World} (h : Runs.Reachable (step cfg webhookKey) Fresh w) :
    Guarantees cfg webhookKey w :=
  (h.invariant (I := Inv) (fun _ => Fresh.inv) fun _ _ _ h hstep => h.step hstep).guarantees

namespace Sample

def setup : Server.Setup := ⟨Zbierak.Sample.crates, none⟩

def fresh : World := ⟨Db.empty, 1000, [], []⟩

def resolve : NetPolicy.Resolver := fun _ _ => .ok [.v4 ⟨93, 184, 216, 34⟩]

/-- The notification about the first event, claimed for the `attempts`-th time. -/
def delivery (attempts : Int) : Outbox.Delivery :=
  ⟨1, "null", attempts, .webhook, "https://hooks.example/in", some "0123456789abcdef", 0⟩

def post : Post :=
  ⟨[⟨.v4 ⟨93, 184, 216, 34⟩, 443⟩], "https://hooks.example/in", some "sha256=", "null"⟩

def ingested : List Label :=
  Server.Sample.installation.map Label.request ++
    [.request (.ingest ⟨1, 1, "demo"⟩ (Zbierak.Sample.eventBody "m") "018f")]

/-- An attempt that is answered with this status. -/
def attempt (attempts : Int) (status : Nat) : List Label := [
  .claim,
  .prepare (delivery attempts) resolve,
  .answer (delivery attempts) post (.ok status),
  .finish (.answered (delivery attempts) (.ok status))]

/-- A notification that fails once and is delivered ten seconds later. -/
def delivered : List Label := ingested ++ attempt 1 503 ++ [.tick 10] ++ attempt 2 200

/-- Three attempts failed, and the fourth has just claimed the row. -/
def claimedAgain : List Label :=
  ingested ++ attempt 1 503 ++ [.tick 10] ++ attempt 2 503 ++ [.tick 20] ++ attempt 3 503 ++
    [.tick 40, .claim]

/-- The fourth attempt fails five seconds after it claimed the row. -/
def failsAgain : List Label := [
  .prepare (delivery 4) resolve,
  .tick 5,
  .answer (delivery 4) post (.ok 503),
  .finish (.answered (delivery 4) (.ok 503)),
  .tick 56]

end Sample

set_option maxRecDepth 20000 in
theorem delivery_guarantees_delivered :
    ∃ w, Runs.run (step Sample.setup none) Sample.delivered Sample.fresh = some w ∧
      (w.db.outbox.get? 1).bind OutboxRow.deliveredAt = some 1010 ∧
      Guarantees Sample.setup none w := by
  have hr : ∃ w ∈ Runs.run (step Sample.setup none) Sample.delivered Sample.fresh,
      (w.db.outbox.get? 1).bind OutboxRow.deliveredAt = some 1010 := by decide
  obtain ⟨w, hr, hdelivered⟩ := hr
  exact ⟨w, hr, hdelivered, delivery_guarantees ⟨_, _, ⟨rfl, rfl, rfl⟩, hr⟩⟩

def isClaim : Label → Bool
  | .claim => true
  | _ => false

set_option maxRecDepth 20000 in
/-- A row that is not claimed, delivered or deleted after it became available
and its lock 61 seconds old, and that is not claimable: its attempt failed. -/
theorem failed_row_not_due :
    ∃ u, Runs.run (step Sample.setup none) Sample.claimedAgain Sample.fresh = some u ∧
    ∃ w, Runs.run (step Sample.setup none) Sample.failsAgain u = some w ∧
    (∀ label ∈ Sample.failsAgain, isClaim label = false) ∧
    (∃ row ∈ u.db.outbox.get? 1, row.deliveredAt = none ∧ row.availableAt ≤ w.clock ∧
      ∀ at_ ∈ row.lockedAt, at_ + 61 ≤ w.clock) ∧
    ∃ row ∈ w.db.outbox.get? 1, row.deliveredAt = none ∧ claimable row w.clock = false := by
  have h : ∃ u ∈ Runs.run (step Sample.setup none) Sample.claimedAgain Sample.fresh,
      ∃ w ∈ Runs.run (step Sample.setup none) Sample.failsAgain u,
      (∀ label ∈ Sample.failsAgain, isClaim label = false) ∧
      (∃ row ∈ u.db.outbox.get? 1, row.deliveredAt = none ∧ row.availableAt ≤ w.clock ∧
        ∀ at_ ∈ row.lockedAt, at_ + 61 ≤ w.clock) ∧
      ∃ row ∈ w.db.outbox.get? 1, row.deliveredAt = none ∧ claimable row w.clock = false := by
    decide
  exact h

end Zbierak.Delivery
