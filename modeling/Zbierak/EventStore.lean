import Zbierak.Server
import Mathlib.Data.Set.Function

/-!
# Events, raw events and issues in step

The counter of an issue starts from a column default and moves by an update;
the rows it counts are inserted elsewhere in the same transaction. `Consistent`
is the invariant that ties them together.
-/
namespace Zbierak.EventStore

open Ingest (IngestProject)
open Server

structure Consistent (db : Db) : Prop where
  count : ∀ id i, db.issues.get? id = some i →
    i.eventCount = db.events.countP fun e => e.issueId = id
  paired : (db.rawEvents.map fun r => (r.id, r.projectId)) =
    db.events.map fun e => (e.id, e.projectId)
  ids : (db.rawEvents.map RawEvent.id).Nodup
  home : ∀ e ∈ db.events, ∃ i, db.issues.get? e.issueId = some i ∧ i.projectId = e.projectId ∧
    i.fingerprint = e.fingerprint
  producers : db.rawEvents.Pairwise fun r s =>
    ¬ (r.projectId = s.projectId ∧ r.producerEventId = s.producerEventId)
  groups : ∀ a b i j, db.issues.get? a = some i → db.issues.get? b = some j →
    i.projectId = j.projectId → i.fingerprint = j.fingerprint → a = b

theorem consistent_empty : Consistent .empty where
  count := by simp [Db.empty]
  paired := rfl
  ids := List.nodup_nil
  home := by simp [Db.empty]
  producers := List.Pairwise.nil
  groups := by simp [Db.empty]

/-- Only issues, raw events and events matter. -/
theorem Consistent.of_same {db db' : Db} (h : Consistent db) (hs : SameIssues db db') :
    Consistent db' := by
  obtain ⟨hissues, hraw, hevents⟩ := hs
  constructor
  · rw [hissues, hevents]
    exact h.count
  · rw [hraw, hevents]
    exact h.paired
  · rw [hraw]
    exact h.ids
  · rw [hissues, hevents]
    exact h.home
  · rw [hraw]
    exact h.producers
  · rw [hissues]
    exact h.groups

/-- A status change moves no event and no count. -/
theorem Consistent.of_status {db db' : Db} (h : Consistent db)
    {p : Int → Issue → Bool} {f : Issue → Issue} (hissues : db'.issues = db.issues.update p f)
    (hf : ∀ i, (f i).eventCount = i.eventCount ∧ (f i).projectId = i.projectId ∧
      (f i).fingerprint = i.fingerprint)
    (hraw : db'.rawEvents = db.rawEvents) (hevents : db'.events = db.events) : Consistent db' := by
  have hold : ∀ id j, db'.issues.get? id = some j → ∃ i, db.issues.get? id = some i ∧
      j.eventCount = i.eventCount ∧ j.projectId = i.projectId ∧ j.fingerprint = i.fingerprint := by
    intro id j hj
    rw [hissues, Table.get?_update, Option.map_eq_some_iff] at hj
    obtain ⟨i, hi, rfl⟩ := hj
    refine ⟨i, hi, ?_⟩
    by_cases hp : p id i = true <;> simp [hp, hf]
  constructor
  · intro id j hj
    obtain ⟨i, hi, hcount, -, -⟩ := hold id j hj
    rw [hcount, hevents]
    exact h.count id i hi
  · rw [hraw, hevents]
    exact h.paired
  · rw [hraw]
    exact h.ids
  · intro e he
    rw [hevents] at he
    obtain ⟨i, hi, hproject, hfingerprint⟩ := h.home e he
    rw [hissues, Table.get?_update, hi]
    refine ⟨_, rfl, ?_, ?_⟩ <;> by_cases hp : p e.issueId i = true <;> simp [*]
  · rw [hraw]
    exact h.producers
  · intro a b i j hi hj hproject hfingerprint
    obtain ⟨i', hi', -, hip, hif⟩ := hold a i hi
    obtain ⟨j', hj', -, hjp, hjf⟩ := hold b j hj
    exact h.groups a b i' j' hi' hj' (by rw [← hip, ← hjp, hproject])
      (by rw [← hif, ← hjf, hfingerprint])

/-- The acceptance of a new event. -/
theorem Consistent.accepted {db : Db} (h : Consistent db) {env : Crates} {publicUrl : Option String}
    {req : IngestProject} {body : Bytes} {p : Ingest.Prepared} {storageId : String} {now : Int}
    (hraw : Ingest.findRaw db req.projectId p.eventId = none)
    (hid : ∀ r ∈ db.rawEvents, r.id ≠ storageId) :
    Consistent (Ingest.accepted env publicUrl req body p storageId now db) := by
  constructor
  · intro id j hj
    simp only [Ingest.accepted] at hj ⊢
    rw [List.countP_append, List.countP_singleton]
    rcases Ingest.issuesAfter_cases req p now db.issues hj with
      ⟨i, hi, -, -, rfl⟩ | ⟨hnone, rfl, -, rfl⟩
    · have hc := h.count id i hi
      by_cases hissue : id = Ingest.issueOf req p db.issues
      · simp [← hissue, Ingest.recur, hc]
      · simp [hissue, Ne.symm hissue, hc]
    · have hzero : (db.events.countP fun e => e.issueId = Ingest.issueOf req p db.issues) = 0 := by
        rw [List.countP_eq_zero]
        intro e he heq
        obtain ⟨i, hi, -, -⟩ := h.home e he
        simp only [decide_eq_true_eq] at heq
        simp [heq, hnone] at hi
      simp [hzero]
  · simp only [Ingest.accepted, Ingest.rawRow, List.map_append, h.paired, List.map_cons,
      List.map_nil]
  · simp only [Ingest.accepted, Ingest.rawRow, List.map_append, List.map_cons, List.map_nil]
    rw [List.nodup_append]
    refine ⟨h.ids, List.nodup_singleton _, ?_⟩
    intro a ha b hb
    obtain ⟨r, hr, rfl⟩ := List.mem_map.mp ha
    rw [List.mem_singleton] at hb
    rw [hb]
    exact hid r hr
  · intro e he
    simp only [Ingest.accepted, List.mem_append, List.mem_singleton] at he ⊢
    rcases he with he | rfl
    · obtain ⟨i, hi, hproject, hfingerprint⟩ := h.home e he
      obtain ⟨j, hj, hjp, hjf⟩ := Ingest.issuesAfter_old req p now db.issues hi
      exact ⟨j, hj, hjp.trans hproject, hjf.trans hfingerprint⟩
    · exact Ingest.issuesAfter_target req p now db.issues
  · simp only [Ingest.accepted, Ingest.rawRow]
    rw [List.pairwise_append]
    refine ⟨h.producers, List.pairwise_singleton _ _, ?_⟩
    intro r hr s hs
    rw [List.mem_singleton] at hs
    rw [hs]
    exact Ingest.findRaw_eq_none.mp hraw r hr
  · intro a b i j hi hj hproject hfingerprint
    simp only [Ingest.accepted] at hi hj
    rcases Ingest.issuesAfter_cases req p now db.issues hi with
      ⟨i', hi', hip, hif, -⟩ | ⟨-, ha, hnew, rfl⟩ <;>
    rcases Ingest.issuesAfter_cases req p now db.issues hj with
      ⟨j', hj', hjp, hjf, -⟩ | ⟨-, hb, hnew', rfl⟩
    · exact h.groups a b i' j' hi' hj' (by rw [← hip, ← hjp, hproject])
        (by rw [← hif, ← hjf, hfingerprint])
    · exact absurd ⟨hip.symm.trans hproject, hif.symm.trans hfingerprint⟩ (hnew' a i' hi')
    · exact absurd ⟨hjp.symm.trans hproject.symm, hjf.symm.trans hfingerprint.symm⟩
        (hnew b j' hj')
    · rw [ha, hb]

theorem exec_consistent (cfg : Setup) (now : Int) (db : Db) (op : Op) (h : Consistent db) :
    Consistent (exec cfg now db op).2 := by
  have hchange := exec_change cfg now db op
  generalize exec cfg now db op = result at hchange
  cases hchange with
  | account hissues => exact h.of_same hissues
  | timeline _ _ _ _ hissues => exact h.of_same hissues
  | endpointAdded _ _ _ hissues => exact h.of_same hissues
  | endpointRemoved _ _ _ hissues => exact h.of_same hissues
  | delivery _ _ _ _ _ hissues => exact h.of_same hissues
  | status projectId issueId userId status i hi hne hdb =>
    have hissues := congrArg Db.issues hdb
    dsimp only at hissues
    refine h.of_status hissues ?_ ?_ ?_
    · exact fun i => ⟨rfl, rfl, rfl⟩
    · rw [hdb]
    · rw [hdb]
  | accepted req body storageId p hp hraw hid => exact h.accepted hraw hid

theorem consistent_after (cfg : Setup) (ops : List (Int × Op)) : Consistent (after cfg ops .empty) :=
  after_invariant (exec_consistent cfg) ops consistent_empty

section Rows

variable {db : Db} (h : Consistent db)

include h

theorem Consistent.events_nodup : (db.events.map EventRow.id).Nodup := by
  have hids := congrArg (List.map Prod.fst) h.paired
  simp only [List.map_map, Function.comp_def] at hids
  exact hids ▸ h.ids

theorem Consistent.producer_unique {r s : RawEvent} (hr : r ∈ db.rawEvents) (hs : s ∈ db.rawEvents)
    (hproject : r.projectId = s.projectId) (hproducer : r.producerEventId = s.producerEventId) :
    r = s := by
  by_contra hne
  have hsymm : Std.Symm fun r s : RawEvent =>
      ¬ (r.projectId = s.projectId ∧ r.producerEventId = s.producerEventId) :=
    ⟨fun a b hab hba => hab ⟨hba.1.symm, hba.2.symm⟩⟩
  exact h.producers.forall hr hs hne ⟨hproject, hproducer⟩

theorem Consistent.same_project {e f : EventRow} (he : e ∈ db.events) (hf : f ∈ db.events)
    (hissue : e.issueId = f.issueId) : e.projectId = f.projectId := by
  obtain ⟨i, hi, hproject, -⟩ := h.home e he
  obtain ⟨j, hj, hproject', -⟩ := h.home f hf
  rw [hissue, hj] at hi
  cases hi
  exact hproject.symm.trans hproject'

/-- One event row is that of a raw event. -/
theorem Consistent.event_of_raw {r : RawEvent} (hr : r ∈ db.rawEvents) :
    ∃ e ∈ db.events, e.id = r.id ∧ e.projectId = r.projectId := by
  have hpair : (r.id, r.projectId) ∈ db.events.map fun e => (e.id, e.projectId) :=
    h.paired ▸ List.mem_map_of_mem hr
  obtain ⟨e, he, heq⟩ := List.mem_map.mp hpair
  exact ⟨e, he, congrArg Prod.fst heq, congrArg Prod.snd heq⟩

/-- The join over a producer id has one row: the raw event is the only one with this
id in its project, and the event is the only one with its storage id. -/
theorem Consistent.acceptedResult {r : RawEvent} {e : EventRow} (hr : r ∈ db.rawEvents)
    (he : e ∈ db.events) (hid : e.id = r.id) :
    Ingest.acceptedResult db r.projectId r.producerEventId =
      .ok (r.bodyHash, e.issueId, e.fingerprint) := by
  have hrow : ∀ row ∈ db.events.flatMap fun f => (db.rawEvents.filter fun s =>
        s.id = f.id ∧ s.projectId = r.projectId ∧ s.producerEventId = r.producerEventId).map fun s =>
          (s.bodyHash, f.issueId, f.fingerprint),
      row = (r.bodyHash, e.issueId, e.fingerprint) := by
    intro row hrow
    obtain ⟨f, hf, hrow⟩ := List.mem_flatMap.mp hrow
    obtain ⟨s, hs, rfl⟩ := List.mem_map.mp hrow
    simp only [List.mem_filter, decide_eq_true_eq] at hs
    obtain ⟨hs, hsid, hproject, hproducer⟩ := hs
    obtain rfl := h.producer_unique hs hr hproject hproducer
    obtain rfl : f = e := List.inj_on_of_nodup_map h.events_nodup hf he (hsid.symm.trans hid.symm)
    rfl
  have hmem : (r.bodyHash, e.issueId, e.fingerprint) ∈ db.events.flatMap fun f =>
      (db.rawEvents.filter fun s => s.id = f.id ∧ s.projectId = r.projectId ∧
        s.producerEventId = r.producerEventId).map fun s => (s.bodyHash, f.issueId, f.fingerprint) :=
    List.mem_flatMap.mpr ⟨e, he, List.mem_map.mpr ⟨r, by simp [hr, hid], rfl⟩⟩
  unfold Ingest.acceptedResult
  dsimp only
  split
  · next row rest heq =>
    rw [heq] at hrow
    rw [hrow row List.mem_cons_self]
  · next heq =>
    rw [heq] at hmem
    cases hmem

end Rows

/-- In a duplicate-free list each element is there once. -/
theorem countP_of_nodup {α β : Type} [DecidableEq β] {f : α → β} {l : List α}
    (h : (l.map f).Nodup) {b : β} (hb : b ∈ l.map f) : (l.countP fun a => f a = b) = 1 := by
  have hcount := List.count_eq_one_of_mem h hb
  rw [List.count, List.countP_map] at hcount
  rw [← hcount]
  congr 1

/-- After any operations on an empty database the counters, the events, the
raw events and the issues agree. -/
theorem events_consistent (cfg : Setup) (ops : List (Int × Op)) :
    let db := after cfg ops .empty
    (∀ id i, db.issues.get? id = some i →
      i.eventCount = db.events.countP fun e => e.issueId = id) ∧
    ((∀ r ∈ db.rawEvents, (db.events.countP fun e => e.id = r.id ∧ e.projectId = r.projectId) = 1) ∧
      ∀ e ∈ db.events,
        (db.rawEvents.countP fun r => r.id = e.id ∧ r.projectId = e.projectId) = 1) ∧
    (∀ e ∈ db.events, ∃ i, db.issues.get? e.issueId = some i ∧ i.projectId = e.projectId ∧
      i.fingerprint = e.fingerprint) ∧
    (db.rawEvents.Pairwise fun r s =>
      ¬ (r.projectId = s.projectId ∧ r.producerEventId = s.producerEventId)) ∧
    (db.issues.rows.Pairwise fun a b =>
      ¬ (a.2.projectId = b.2.projectId ∧ a.2.fingerprint = b.2.fingerprint)) := by
  intro db
  have h : Consistent db := consistent_after cfg ops
  have hpairs : (db.rawEvents.map fun r => (r.id, r.projectId)).Nodup := by
    refine List.Nodup.of_map Prod.fst ?_
    rw [List.map_map]
    exact h.ids
  refine ⟨h.count, ⟨fun r hr => ?_, fun e he => ?_⟩, h.home, h.producers, ?_⟩
  · have hmem : (r.id, r.projectId) ∈ db.events.map fun e => (e.id, e.projectId) := by
      rw [← h.paired]
      exact List.mem_map_of_mem hr
    simpa using countP_of_nodup (h.paired ▸ hpairs) hmem
  · have hmem : (e.id, e.projectId) ∈ db.rawEvents.map fun r => (r.id, r.projectId) := by
      rw [h.paired]
      exact List.mem_map_of_mem he
    simpa using countP_of_nodup hpairs hmem
  · refine db.issues.sorted.imp_of_mem fun {a b} ha hb hlt hsame => ?_
    have := h.groups a.1 b.1 a.2 b.2 ((Table.get?_eq_some _).mpr ha) ((Table.get?_eq_some _).mpr hb)
      hsame.1 hsame.2
    omega

end Zbierak.EventStore
