import Zbierak.DeliveryRuns
import Zbierak.Lib.Lease

/-!
# When notifications are tried again

A row of the outbox is a job under a lease of sixty seconds: `claim` takes it,
and the worker reports an outcome or is never heard of again. Workers share
nothing but the row, and any of them may report on it at any time.
-/
namespace Zbierak.Pacing

open Server Outbox

def leaseSeconds : Int := 60

/-- The row as a job. -/
def job (row : OutboxRow) : Lease.Job := ⟨row.attempts, row.lockedAt, row.availableAt, row.deliveredAt⟩

/-- What an operation does to the row with this key. -/
def observe (now : Int) (db : Db) (id : Int) : Op → List Lease.Mark
  | .request _ => []
  | .worker .claim =>
    if (db.outbox.find? fun _ row => claimable row now).map Prod.fst = some id then [.taken now] else []
  | .worker (.markDelivered rowId) =>
    if rowId = id ∧ (db.outbox.get? id).isSome then [.finished now] else []
  | .worker (.fail rowId attempts _) =>
    if rowId = id ∧ (db.outbox.get? id).isSome then [.failed now (retryDelay attempts)] else []

/-- Everything that happened to the row, in order. -/
def history (cfg : Setup) (id : Int) : List (Int × Op) → Db → List Lease.Mark
  | [], _ => []
  | op :: ops, db => observe op.1 db id op.2 ++ history cfg id ops (exec cfg op.1 db op.2).2

/-- The row is what its history makes of a new one. A row that was never
inserted has no history, and one that is gone does not come back. -/
structure Follows (db : Db) (id : Int) (marks : List Lease.Mark) : Prop where
  row : ∀ row, db.outbox.get? id = some row → ∃ readyAt,
    job row = (Lease.Job.new readyAt).after marks ∧
      Lease.Valid leaseSeconds (Lease.Job.new readyAt) marks
  unborn : db.outbox.seq < id → marks = []
  valid : ∃ readyAt, Lease.Valid leaseSeconds (Lease.Job.new readyAt) marks

theorem claimable_iff_free {row : OutboxRow} {now : Int} :
    claimable row now = true ↔ (job row).Free leaseSeconds now := by
  rw [Delivery.claimable_iff]
  constructor
  · rintro ⟨hopen, hdue, hheld⟩
    refine ⟨hopen, hdue, fun since hsince => ?_⟩
    have := hheld since hsince
    simp only [leaseSeconds]
    omega
  · rintro ⟨hopen, hdue, hheld⟩
    refine ⟨hopen, hdue, fun since hsince => ?_⟩
    have := hheld since hsince
    simp only [leaseSeconds] at this
    omega

theorem Follows.empty (id : Int) : Follows .empty id [] where
  row row h := by cases h
  unborn _ := rfl
  valid := ⟨0, Lease.valid_nil⟩

/-- A request is no mark on any row. -/
theorem Follows.request {db : Db} {id : Int} {marks : List Lease.Mark} (h : Follows db id marks)
    (cfg : Setup) (now : Int) (r : Request) : Follows (exec cfg now db (.request r)).2 id marks where
  row row hrow := by
    rcases request_row cfg now db r hrow with
      hold | ⟨hnew, endpointId, eventType, payloadJson, readyAt, rfl⟩
    · exact h.row row hold
    · rw [h.unborn hnew]
      exact ⟨readyAt, rfl, Lease.valid_nil⟩
  unborn hid := h.unborn (by
    have := (Delivery.queueEvolves_request cfg now db r).outboxSeq
    omega)
  valid := h.valid

/-- One update of one row is one mark on it. -/
theorem Follows.update {db : Db} {id rowId : Int} {marks : List Lease.Mark} (h : Follows db id marks)
    {f : OutboxRow → OutboxRow} {m : Lease.Mark} (hf : ∀ row, job (f row) = (job row).mark m)
    (hfree : ∀ row, db.outbox.get? rowId = some row → ∀ now, m = .taken now →
      (job row).Free leaseSeconds now) :
    Follows { db with outbox := db.outbox.update (fun i _ => i = rowId) f } id
      (marks ++ if rowId = id ∧ (db.outbox.get? id).isSome then [m] else []) := by
  by_cases hrowId : rowId = id
  · subst hrowId
    cases hget : db.outbox.get? rowId with
    | none =>
      rw [if_neg (by simp), List.append_nil]
      exact ⟨fun row hrow => by simp [hget] at hrow, fun hid => h.unborn hid, h.valid⟩
    | some row =>
      rw [if_pos (by simp)]
      obtain ⟨readyAt, hjob, hvalid⟩ := h.row row hget
      have hsnoc : Lease.Valid leaseSeconds (Lease.Job.new readyAt) (marks ++ [m]) :=
        hvalid.snoc fun now hm => hjob ▸ hfree row hget now hm
      refine ⟨fun row' hrow' => ⟨readyAt, ?_, hsnoc⟩, fun hid => ?_, readyAt, hsnoc⟩
      · simp only [Table.get?_update, hget, Option.map_some, decide_true, if_true,
          Option.some.injEq] at hrow'
        rw [← hrow', hf, hjob, Lease.after_snoc]
      · have := db.outbox.le_seq_of_get? hget
        simp only [Table.seq_update] at hid
        omega
  · rw [if_neg (fun hboth => hrowId hboth.1), List.append_nil]
    refine ⟨fun row hrow => h.row row ?_, fun hid => h.unborn hid, h.valid⟩
    rw [Table.get?_update, Option.map_eq_some_iff] at hrow
    obtain ⟨old, hold, rfl⟩ := hrow
    rw [hold, if_neg (by simpa using Ne.symm hrowId)]

/-- The worker's statements are the marks. -/
theorem Follows.exec {db : Db} {id : Int} {marks : List Lease.Mark} (h : Follows db id marks)
    (cfg : Setup) (now : Int) (op : Op) :
    Follows (exec cfg now db op).2 id (marks ++ observe now db id op) := by
  cases op with
  | request r => exact (List.append_nil marks).symm ▸ h.request cfg now r
  | worker w =>
    cases w with
    | claim =>
      cases hfind : db.outbox.find? fun _ row => claimable row now with
      | none =>
        simp only [Server.exec, execWorker, claim, observe, hfind]
        simpa using h
      | some found =>
        obtain ⟨hget, hdue⟩ := db.outbox.find?_some hfind
        have hafter : (Server.exec cfg now db (.worker .claim)).2 =
            { db with outbox := db.outbox.update (fun i _ => i = found.1) (lockRow now) } := by
          simp only [Server.exec, execWorker, claim, hfind]
          cases db.endpoints.get? found.2.endpointId <;> rfl
        have hmark : observe now db id (.worker .claim) =
            if found.1 = id ∧ (db.outbox.get? id).isSome then [.taken now] else [] := by
          simp only [observe, hfind, Option.map_some, Option.some.injEq]
          refine if_congr ⟨fun hid => ⟨hid, ?_⟩, fun hboth => hboth.1⟩ rfl rfl
          rw [← hid, hget, Option.isSome_some]
        rw [hafter, hmark]
        refine h.update (fun row => rfl) fun row hrow now' hnow => ?_
        obtain rfl : found.2 = row := Option.some.inj (hget.symm.trans hrow)
        cases hnow
        exact claimable_iff_free.mp hdue
    | markDelivered rowId => exact h.update (fun row => rfl) fun _ _ _ hm => by cases hm
    | fail rowId attempts error => exact h.update (fun row => rfl) fun _ _ _ hm => by cases hm

theorem follows_after (cfg : Setup) (id : Int) (ops : List (Int × Op)) {db : Db}
    {marks : List Lease.Mark} (h : Follows db id marks) :
    Follows (after cfg ops db) id (marks ++ history cfg id ops db) := by
  induction ops generalizing db marks with
  | nil => exact (List.append_nil marks).symm ▸ h
  | cons op ops ih =>
    rw [after_cons, history, ← List.append_assoc]
    exact ih (h.exec cfg op.1 op.2)

end Zbierak.Pacing
