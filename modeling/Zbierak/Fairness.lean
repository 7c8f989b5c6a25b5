import Zbierak.Pacing
import Mathlib.Algebra.Group.Action.Defs
import Mathlib.Algebra.Order.BigOperators.Group.Finset

/-!
# No delivery is passed over

A claim takes the oldest row that is due. Older rows come back only after the
lease or the waiting time of their last failure, so that a window of time has
room for a limited number of claims on each of them, and a row that is due has its
turn when the claims are more than that.
-/
namespace Zbierak.Fairness

open Server Outbox Pacing

def isClaim : Op → Bool
  | .worker .claim => true
  | .worker (.markDelivered _) | .worker (.fail _ _ _) | .request _ => false

theorem isClaim_iff {op : Op} : isClaim op = true ↔ op = .worker .claim := by
  cases op with
  | request => simp [isClaim]
  | worker w => cases w <;> simp [isClaim]

/-- The shortest waiting time after a failure, in seconds. -/
def shortestDelay : Int := 5

theorem shortestDelay_le (attempts : Int) : shortestDelay ≤ retryDelay attempts := by
  unfold retryDelay shortestDelay
  split
  · decide
  · have hpow : (1 : Int) ≤ 2 ^ (min (max attempts 0) 11).toNat := Int.pow_pos (by decide)
    omega

/-- An operation makes one mark on a row at most, and makes it now. -/
theorem observe_cases (now : Int) (db : Db) (id : Int) (op : Op) : observe now db id op = [] ∨
    ∃ m, observe now db id op = [m] ∧ m.madeAt = now ∧
      ∀ at_ wait, m = .failed at_ wait → shortestDelay ≤ wait := by
  cases op with
  | request => exact .inl rfl
  | worker w =>
    cases w with
    | claim =>
      rw [observe]
      split
      · exact .inr ⟨_, rfl, rfl, fun _ _ h => by cases h⟩
      · exact .inl rfl
    | markDelivered rowId =>
      rw [observe]
      split
      · exact .inr ⟨_, rfl, rfl, fun _ _ h => by cases h⟩
      · exact .inl rfl
    | fail rowId attempts error =>
      rw [observe]
      split
      · refine .inr ⟨_, rfl, rfl, fun _ _ h => ?_⟩
        cases h
        exact shortestDelay_le attempts
      · exact .inl rfl

section History

variable (cfg : Setup) (id : Int)

theorem history_append (before ops : List (Int × Op)) (db : Db) :
    history cfg id (before ++ ops) db =
      history cfg id before db ++ history cfg id ops (after cfg before db) := by
  induction before generalizing db with
  | nil => rfl
  | cons op before ih => rw [List.cons_append, history, history, ih, List.append_assoc, after_cons]

theorem mem_history {ops : List (Int × Op)} {db : Db} {m : Lease.Mark}
    (h : m ∈ history cfg id ops db) : (∃ op ∈ ops, m.madeAt = op.1) ∧
      ∀ at_ wait, m = .failed at_ wait → shortestDelay ≤ wait := by
  induction ops generalizing db with
  | nil => cases h
  | cons op ops ih =>
    rcases List.mem_append.mp h with h | h
    · rcases observe_cases op.1 db id op.2 with hnone | ⟨mark, hmark, hmade, hwait⟩
      · rw [hnone] at h
        cases h
      · rw [hmark, List.mem_singleton] at h
        subst h
        exact ⟨⟨op, List.mem_cons_self, hmade⟩, hwait⟩
    · obtain ⟨⟨later, hmem, hmade⟩, hwait⟩ := ih h
      exact ⟨⟨later, List.mem_cons_of_mem _ hmem, hmade⟩, hwait⟩

theorem history_timed {ops : List (Int × Op)} (h : ops.Pairwise fun a b => a.1 ≤ b.1) (db : Db) :
    Lease.Timed shortestDelay (history cfg id ops db) where
  ordered := by
    induction ops generalizing db with
    | nil => exact List.Pairwise.nil
    | cons op ops ih =>
      obtain ⟨hop, hops⟩ := List.pairwise_cons.mp h
      rw [history, List.pairwise_append]
      refine ⟨?_, ih hops _, fun m hm later hlater => ?_⟩
      · rcases observe_cases op.1 db id op.2 with hnone | ⟨mark, hmark, -⟩
        · rw [hnone]
          exact List.Pairwise.nil
        · rw [hmark]
          exact List.pairwise_singleton _ _
      · obtain ⟨⟨other, hother, hmade⟩, -⟩ := mem_history cfg id hlater
        rcases observe_cases op.1 db id op.2 with hnone | ⟨mark, hmark, hnow, -⟩
        · rw [hnone] at hm
          cases hm
        · rw [hmark, List.mem_singleton] at hm
          rw [hm, hnow, hmade]
          exact hop other hother
  waits at_ wait hmem := (mem_history cfg id hmem).2 at_ wait rfl

end History

theorem update_row (t : Table OutboxRow) {rowId j : Int} {f : OutboxRow → OutboxRow} {m : Lease.Mark}
    (hf : ∀ row, job (f row) = (job row).mark m) {row' : OutboxRow}
    (h : (t.update (fun i _ => i = rowId) f).get? j = some row') : ∃ row, t.get? j = some row ∧
      job row' = (job row).after (if rowId = j ∧ (t.get? j).isSome then [m] else []) := by
  rw [Table.get?_update, Option.map_eq_some_iff] at h
  obtain ⟨row, hrow, rfl⟩ := h
  refine ⟨row, hrow, ?_⟩
  by_cases hj : j = rowId
  · subst hj
    rw [if_pos (by simp), if_pos (by simp [hrow]), hf]
    rfl
  · rw [if_neg (by simpa using hj), if_neg fun hboth => hj hboth.1.symm, Lease.after_nil]

/-- What an operation does to the rows of the outbox: a row is new, or it is an
old one with the marks that were made on it. -/
theorem row_before (cfg : Setup) (now : Int) (db : Db) (op : Op) {j : Int} {row' : OutboxRow}
    (h : (exec cfg now db op).2.outbox.get? j = some row') : db.outbox.seq < j ∨
      ∃ row, db.outbox.get? j = some row ∧ job row' = (job row).after (observe now db j op) := by
  cases op with
  | request r =>
    rcases request_row cfg now db r h with hold | ⟨hnew, -⟩
    · exact .inr ⟨row', hold, rfl⟩
    · exact .inl hnew
  | worker w =>
    refine .inr ?_
    cases w with
    | claim =>
      rw [observe]
      cases hfind : db.outbox.find? fun _ row => claimable row now with
      | none =>
        have hsame : (exec cfg now db (.worker .claim)).2 = db := by
          simp only [exec, execWorker, claim, hfind]
        rw [hsame] at h
        exact ⟨row', h, by simp⟩
      | some found =>
        have hafter : (exec cfg now db (.worker .claim)).2 =
            { db with outbox := db.outbox.update (fun i _ => i = found.1) (lockRow now) } := by
          simp only [exec, execWorker, claim, hfind]
          cases db.endpoints.get? found.2.endpointId <;> rfl
        rw [hafter] at h
        obtain ⟨row, hrow, hjob⟩ := update_row db.outbox (m := .taken now) (fun _ => rfl) h
        refine ⟨row, hrow, hjob.trans (congrArg _ (if_congr ?_ rfl rfl))⟩
        simp [hrow]
    | markDelivered rowId => exact update_row db.outbox (fun _ => rfl) h
    | fail rowId attempts error => exact update_row db.outbox (fun _ => rfl) h

theorem outboxSeq_le (cfg : Setup) (now : Int) (db : Db) (op : Op) :
    db.outbox.seq ≤ (exec cfg now db op).2.outbox.seq := by
  cases op with
  | request r => exact (Delivery.queueEvolves_request cfg now db r).outboxSeq
  | worker w =>
    cases w with
    | claim =>
      rcases claim_cases now db with ⟨hsame, -⟩ | ⟨id, row, -, -, hafter, -⟩
      · simp only [exec, execWorker, hsame, le_refl]
      · simp only [exec, execWorker, hafter, Table.seq_update, le_refl]
    | markDelivered | fail => exact le_refl _

/-- A row that is gone does not come back. -/
theorem gone_stays (cfg : Setup) {id : Int} {ops : List (Int × Op)} {db : Db}
    (hseq : id ≤ db.outbox.seq) (h : db.outbox.get? id = none) :
    (after cfg ops db).outbox.get? id = none := by
  induction ops generalizing db with
  | nil => exact h
  | cons op ops ih =>
    rw [after_cons]
    refine ih (hseq.trans (outboxSeq_le cfg op.1 db op.2)) ?_
    by_contra hsome
    obtain ⟨row', hrow'⟩ := Option.ne_none_iff_exists'.mp hsome
    rcases row_before cfg op.1 db op.2 hrow' with hnew | ⟨row, hrow, -⟩
    · omega
    · rw [h] at hrow
      cases hrow

/-- A claim takes a row that is due, or an older one. -/
theorem claim_takes {now : Int} {db : Db} {id : Int} {row : OutboxRow}
    (hrow : db.outbox.get? id = some row) (hfree : (job row).Free leaseSeconds now) :
    ∃ found old, found ≤ id ∧ db.outbox.get? found = some old ∧ old.deliveredAt = none ∧
      observe now db found (.worker .claim) = [.taken now] := by
  have hdue := claimable_iff_free.mpr hfree
  cases hfind : db.outbox.find? fun _ row => claimable row now with
  | none =>
    have hnot := db.outbox.find?_none hfind hrow
    rw [hdue] at hnot
    cases hnot
  | some found =>
    obtain ⟨hget, hfound⟩ := db.outbox.find?_some hfind
    refine ⟨found.1, found.2, db.outbox.find?_le hfind hrow hdue, hget,
      (claimable_iff_free.mp hfound).open_, ?_⟩
    rw [observe, hfind, Option.map_some, if_pos rfl]

/-- While a row is due and nobody takes it, every claim takes an older one. -/
theorem claims_le (cfg : Setup) {id start : Int} {older : Finset Int} {ops : List (Int × Op)} {db : Db}
    (hfree : ∃ row, db.outbox.get? id = some row ∧ (job row).Free leaseSeconds start)
    (holder : ∀ j row, db.outbox.get? j = some row → j < id → row.deliveredAt = none → j ∈ older)
    (hstart : ∀ op ∈ ops, start ≤ op.1) (hunmarked : history cfg id ops db = [])
    (hkept : (after cfg ops db).outbox.get? id ≠ none) :
    ops.countP (fun op => isClaim op.2) ≤
      ∑ j ∈ older, (history cfg j ops db).countP Lease.Mark.isTaken := by
  induction ops generalizing db with
  | nil => simp
  | cons op ops ih =>
    obtain ⟨row, hrow, hrowfree⟩ := hfree
    rw [history, List.append_eq_nil_iff] at hunmarked
    rw [after_cons] at hkept
    have hseq := db.outbox.le_seq_of_get? hrow
    have hrest : ops.countP (fun op => isClaim op.2) ≤
        ∑ j ∈ older, (history cfg j ops (exec cfg op.1 db op.2).2).countP Lease.Mark.isTaken := by
      refine ih ?_ (fun j row' hrow' hlt hopen => ?_) (fun op hop => hstart op (List.mem_cons_of_mem _ hop))
        hunmarked.2 hkept
      · -- the row is still there, and no mark was made on it
        cases hrow' : (exec cfg op.1 db op.2).2.outbox.get? id with
        | none =>
          exact absurd (gone_stays cfg (hseq.trans (outboxSeq_le cfg op.1 db op.2)) hrow') hkept
        | some row' =>
          rcases row_before cfg op.1 db op.2 hrow' with hnew | ⟨old, hold, hjob⟩
          · omega
          · obtain rfl := Option.some.inj (hrow.symm.trans hold)
            rw [hunmarked.1, Lease.after_nil] at hjob
            exact ⟨row', rfl, hjob ▸ hrowfree⟩
      · rcases row_before cfg op.1 db op.2 hrow' with hnew | ⟨old, hold, hjob⟩
        · omega
        · have hfinished : ((job old).after (observe op.1 db j op.2)).finishedAt = none := hjob ▸ hopen
          exact holder j old hold hlt (Lease.unfinished_before hfinished)
    have hclaim : (if isClaim op.2 then 1 else 0) ≤
        ∑ j ∈ older, (observe op.1 db j op.2).countP Lease.Mark.isTaken := by
      split
      · next hop =>
        have hnow : op.2 = .worker .claim := isClaim_iff.mp hop
        obtain ⟨found, old, hle, hold, hopen, hmark⟩ :=
          claim_takes hrow (hrowfree.later (hstart op List.mem_cons_self))
        rw [← hnow] at hmark
        have hne : found ≠ id := by
          rintro rfl
          rw [hunmarked.1] at hmark
          cases hmark
        have hmem := holder found old hold (lt_of_le_of_ne hle hne) hopen
        calc 1 = (observe op.1 db found op.2).countP Lease.Mark.isTaken := by rw [hmark]; rfl
          _ ≤ _ := Finset.single_le_sum
            (f := fun j => (observe op.1 db j op.2).countP Lease.Mark.isTaken)
            (fun _ _ => Nat.zero_le _) hmem
      · exact Nat.zero_le _
    rw [List.countP_cons]
    simp only [history, List.countP_append, Finset.sum_add_distrib]
    omega

/-- Rows with a smaller key that are not delivered. -/
def undeliveredBefore (db : Db) (id : Int) : List (Int × OutboxRow) :=
  db.outbox.select fun j row => j < id ∧ row.deliveredAt = none

/-- Whatever the workers and the requests do in a window of time: when there are
more claims in it than the undelivered rows before a due row have room for, the
row is claimed or reported on, or its endpoint was deleted. -/
theorem claims_fair (cfg : Setup) (before ops : List (Int × Op)) {id start : Int} {width : Nat}
    {row : OutboxRow} (hrow : (after cfg before .empty).outbox.get? id = some row)
    (hdue : claimable row start = true) (hordered : ops.Pairwise fun a b => a.1 ≤ b.1)
    (hwindow : ∀ op ∈ ops, start ≤ op.1 ∧ op.1 ≤ start + width)
    (hmany : (undeliveredBefore (after cfg before .empty) id).length * (width / 5 + 1) <
      ops.countP fun op => isClaim op.2) :
    history cfg id ops (after cfg before .empty) ≠ [] ∨
      (after cfg ops (after cfg before .empty)).outbox.get? id = none := by
  by_contra hnot
  rw [not_or, not_not] at hnot
  obtain ⟨hunmarked, hkept⟩ := hnot
  let older : Finset Int := ((undeliveredBefore (after cfg before .empty) id).map Prod.fst).toFinset
  have hclaims : ops.countP (fun op => isClaim op.2) ≤ ∑ j ∈ older,
      (history cfg j ops (after cfg before .empty)).countP Lease.Mark.isTaken := by
    refine claims_le cfg ⟨row, hrow, claimable_iff_free.mp hdue⟩ (fun j old hold hlt hopen => ?_)
      (fun op hop => (hwindow op hop).1) hunmarked hkept
    rw [List.mem_toFinset]
    refine List.mem_map.mpr ⟨(j, old), ?_, rfl⟩
    rw [undeliveredBefore, Table.mem_select]
    exact ⟨hold, by simp [hlt, hopen]⟩
  have heach : ∀ j ∈ older, (history cfg j ops (after cfg before .empty)).countP Lease.Mark.isTaken ≤
      width / 5 + 1 := by
    intro j _
    obtain ⟨readyAt, hvalid⟩ := (follows_after cfg j (before ++ ops) (Follows.empty j)).valid
    rw [List.nil_append, history_append] at hvalid
    have hmarks : ∀ m ∈ history cfg j ops (after cfg before .empty),
        start ≤ m.madeAt ∧ m.madeAt ≤ start + width := fun m hm => by
      obtain ⟨⟨op, hop, hmade⟩, -⟩ := mem_history cfg j hm
      rw [hmade]
      exact hwindow op hop
    have hcount := hvalid.later.takings_le (history_timed cfg j hordered _) (by decide)
      (by simp only [shortestDelay]; omega) hmarks
    simp only [shortestDelay] at hcount
    omega
  have hsum := (Finset.sum_le_card_nsmul older _ _ heach).trans_eq (smul_eq_mul _ _)
  have hcard : older.card ≤ (undeliveredBefore (after cfg before .empty) id).length := by
    have hlength := List.toFinset_card_le ((undeliveredBefore (after cfg before .empty) id).map Prod.fst)
    rwa [List.length_map] at hlength
  have hroom := Nat.mul_le_mul_right (width / 5 + 1) hcard
  omega

/-- Two endpoints are told of a new issue. -/
def Sample.notified : List (Int × Op) :=
  Server.Sample.installation.map (fun r => (0, .request r)) ++ [
    (0, .request (.createWebhook "demo" ⟨1, "chat", .webhook, "https://hooks.example/in", none, 0, true, 1⟩)),
    (10, .request (.ingest ⟨1, 1, "demo"⟩ (Sample.eventBody "m") "018f"))]

set_option maxRecDepth 20000 in
/-- The second endpoint has its turn with the second claim. -/
theorem claims_fair_notified :
    let cfg : Setup := ⟨Sample.crates, none⟩
    let db := after cfg Sample.notified .empty
    let ops := [(11, Op.worker .claim), (12, Op.worker .claim)]
    history cfg 2 ops db ≠ [] ∨ (after cfg ops db).outbox.get? 2 = none := by
  intro cfg db ops
  have hdue : ∃ row, db.outbox.get? 2 = some row ∧ claimable row 10 = true := ⟨_, rfl, rfl⟩
  obtain ⟨row, hrow, hdue⟩ := hdue
  have hwindow : ∀ op ∈ ops, 10 ≤ op.1 ∧ op.1 ≤ 10 + ((4 : Nat) : Int) := by simp [ops]
  have hone : (undeliveredBefore db 2).length = 1 := rfl
  exact claims_fair cfg Sample.notified ops hrow hdue (by simp [ops]) hwindow (by rw [hone]; decide)

end Zbierak.Fairness
