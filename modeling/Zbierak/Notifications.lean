import Zbierak.EventStore

/-!
# Notifications are queued when an issue appears or reappears

The rows an operation adds to the outbox are those with a new key. Only the
first acceptance of an event adds any, and which ones depends on the issue the
event meets; over a run this fixes the order of an issue's batches.
-/
namespace Zbierak.Notifications

open Ingest (IngestProject NotificationKind enabledEndpoints)
open Server EventStore

/-- Outbox rows that are in the second store and not in the first. -/
def queued (db db' : Db) : List OutboxRow := db'.outbox.newer db.outbox.seq

/-- Endpoint and event type of each row. -/
def targets (rows : List OutboxRow) : List (Int × String) :=
  rows.map fun row => (row.endpointId, row.eventType)

/-- One row of this kind for each enabled endpoint of the project. -/
def oneEach (db : Db) (projectId : Int) (kind : NotificationKind) : List (Int × String) :=
  (enabledEndpoints db.endpoints projectId).map fun endpointId => (endpointId, kind.asStr)

/-- A first-time acceptance, as the caller sees it. -/
def FirstAccepted (cfg : Setup) (now : Int) (db : Db) (op : Op) (req : IngestProject)
    (response : IngestResponse) : Prop :=
  (∃ body storageId, op = .request (.ingest req body storageId)) ∧
    (exec cfg now db op).1 = .ok (.ingested response) ∧ response.duplicate = false

/-- An operation queues nothing, or is an acceptance whose event caused a
notification. -/
theorem queued_cases (cfg : Setup) (now : Int) (db : Db) (op : Op) :
    queued db (exec cfg now db op).2 = [] ∨
    ∃ req body storageId p kind, op = .request (.ingest req body storageId) ∧
      Ingest.kindOf req p db.issues = some kind ∧
      exec cfg now db op =
        (.ok (.ingested ⟨p.eventId, Ingest.issueOf req p db.issues, p.fingerprint, false⟩),
          Ingest.accepted cfg.env cfg.publicUrl req body p storageId now db) ∧
      targets (queued db (exec cfg now db op).2) = oneEach db req.projectId kind := by
  have hchange := exec_change cfg now db op
  generalize hexec : exec cfg now db op = result at hchange ⊢
  cases hchange with
  | account _ hqueue => exact .inl (by simp [queued, hqueue.outbox])
  | timeline _ _ _ _ _ hqueue => exact .inl (by simp [queued, hqueue.outbox])
  | status projectId issueId userId status i hi hne hdb => exact .inl (by simp [queued, hdb])
  | endpointAdded _ _ houtbox => exact .inl (by simp [queued, houtbox])
  | endpointRemoved _ _ houtbox => exact .inl (by simp [queued, houtbox])
  | delivery _ _ houtbox => exact .inl (by simp [queued, houtbox])
  | accepted req body storageId p =>
    cases hkind : Ingest.kindOf req p db.issues with
    | none => exact .inl (by simp [queued, Ingest.accepted, hkind])
    | some kind =>
      refine .inr ⟨req, body, storageId, p, kind, rfl, hkind, rfl, ?_⟩
      simp [queued, targets, oneEach, Ingest.accepted, hkind, Ingest.batch]

theorem queued_firstAccepted {cfg : Setup} {now : Int} {db : Db} {op : Op} {req : IngestProject}
    {response : IngestResponse} (h : FirstAccepted cfg now db op req response) :
    ∃ p, response.fingerprint = p.fingerprint ∧
      targets (queued db (exec cfg now db op).2) =
        match Ingest.kindOf req p db.issues with
        | some kind => oneEach db req.projectId kind
        | none => [] := by
  obtain ⟨⟨body, storageId, rfl⟩, hreply, hnew⟩ := h
  rcases exec_ingest cfg now db req body storageId with
    ⟨e, he⟩ | ⟨r, hr, he⟩ | ⟨p, -, -, -, -, he⟩
  · rw [he] at hreply
    cases hreply
  · rw [he] at hreply
    cases hreply
    simp [hr] at hnew
  · rw [he] at hreply ⊢
    cases hreply
    refine ⟨p, rfl, ?_⟩
    cases hkind : Ingest.kindOf req p db.issues with
    | none => simp [queued, targets, Ingest.accepted, hkind]
    | some kind => simp [queued, targets, oneEach, Ingest.accepted, hkind, Ingest.batch]

/-- With one issue to a fingerprint, the kind is decided by its status. -/
theorem kindOf_eq {db : Db} (h : Consistent db) {req : IngestProject} {p : Ingest.Prepared} {id : Int}
    {i : Issue} (hi : db.issues.get? id = some i) (hproject : i.projectId = req.projectId)
    (hfingerprint : i.fingerprint = p.fingerprint) :
    Ingest.kindOf req p db.issues = if i.status = .resolved then some .regressed else none := by
  rcases Ingest.upsert_cases req p 0 db.issues with ⟨j, hj, hjp, hjf, hkind, -⟩ | ⟨hnew, -⟩
  · obtain rfl := h.groups _ _ j i hj hi (hjp.trans hproject.symm) (hjf.trans hfingerprint.symm)
    obtain rfl : j = i := by simpa [hj] using hi
    exact hkind
  · exact absurd ⟨hproject, hfingerprint⟩ (hnew id i hi)

theorem kindOf_new {issues : Table Issue} {req : IngestProject} {p : Ingest.Prepared}
    (h : ∀ id i, issues.get? id = some i →
      ¬ (i.projectId = req.projectId ∧ i.fingerprint = p.fingerprint)) :
    Ingest.kindOf req p issues = some .created := by
  rcases Ingest.upsert_cases req p 0 issues with ⟨j, hj, hjp, hjf, -⟩ | ⟨-, -, hkind, -⟩
  · exact absurd ⟨hjp, hjf⟩ (h _ j hj)
  · exact hkind

/-- A batch of notifications of one kind about one issue. -/
def Batch (cfg : Setup) (db : Db) (op : Int × Op) (kind : NotificationKind) (issueId : Int) : Prop :=
  ∃ response, (exec cfg op.1 db op.2).1 = .ok (.ingested response) ∧ response.issueId = issueId ∧
    ∃ row ∈ queued db (exec cfg op.1 db op.2).2, row.eventType = kind.asStr

theorem NotificationKind.asStr_injective : Function.Injective NotificationKind.asStr := by
  intro a b h
  cases a <;> cases b <;> first | rfl | (simp [NotificationKind.asStr] at h)

theorem Batch.accepted {cfg : Setup} {db : Db} {op : Int × Op} {kind : NotificationKind}
    {issueId : Int} (h : Batch cfg db op kind issueId) :
    ∃ req body storageId p, issueId = Ingest.issueOf req p db.issues ∧
      Ingest.kindOf req p db.issues = some kind ∧
      (exec cfg op.1 db op.2).2 =
        Ingest.accepted cfg.env cfg.publicUrl req body p storageId op.1 db := by
  obtain ⟨response, hreply, hissue, row, hrow, htype⟩ := h
  rcases queued_cases cfg op.1 db op.2 with hnil | ⟨req, body, storageId, p, k, -, hkind, hexec, hrows⟩
  · rw [hnil] at hrow
    cases hrow
  · rw [hexec] at hreply
    cases hreply
    refine ⟨req, body, storageId, p, hissue.symm, ?_, by rw [hexec]⟩
    have hmem : (row.endpointId, row.eventType) ∈ oneEach db req.projectId k := by
      rw [← hrows]
      exact List.mem_map_of_mem hrow
    obtain ⟨e, -, he⟩ := List.mem_map.mp hmem
    rw [hkind, NotificationKind.asStr_injective ((congrArg Prod.snd he).trans htype)]

/-- Issues are never removed. -/
theorem exec_issue_some (cfg : Setup) (now : Int) (db : Db) (op : Op) {id : Int}
    (h : (db.issues.get? id).isSome = true) :
    ((exec cfg now db op).2.issues.get? id).isSome = true := by
  have hchange := exec_change cfg now db op
  generalize exec cfg now db op = result at hchange ⊢
  cases hchange with
  | account hissues => rwa [hissues.issues]
  | timeline _ _ _ _ hissues => rwa [hissues.issues]
  | endpointAdded _ _ _ hissues => rwa [hissues.issues]
  | endpointRemoved _ _ _ hissues => rwa [hissues.issues]
  | delivery _ _ _ _ _ hissues => rwa [hissues.issues]
  | status projectId issueId userId status i hi hne hdb => simpa [hdb] using h
  | accepted req body storageId p =>
    obtain ⟨i, hi⟩ := Option.isSome_iff_exists.mp h
    obtain ⟨j, hj, -⟩ := Ingest.issuesAfter_old req p now db.issues hi
    simp [Ingest.accepted, hj]

/-- The issue exists and is resolved. -/
def IsResolved (issueId : Int) (db : Db) : Prop :=
  ∃ i, db.issues.get? issueId = some i ∧ i.status = .resolved

/-- Only a manual change resolves an issue. -/
theorem exec_resolves (cfg : Setup) (now : Int) (db : Db) (op : Op) {issueId : Int}
    (hbefore : ¬ IsResolved issueId db) (hafter : IsResolved issueId (exec cfg now db op).2) :
    ∃ projectId userId, op = .request (.setIssueStatus projectId issueId userId .resolved) := by
  obtain ⟨j, hj, hresolved⟩ := hafter
  have hchange := exec_change cfg now db op
  generalize exec cfg now db op = result at hchange hj
  cases hchange with
  | account hissues => exact absurd ⟨j, hissues.issues ▸ hj, hresolved⟩ hbefore
  | timeline _ _ _ _ hissues => exact absurd ⟨j, hissues.issues ▸ hj, hresolved⟩ hbefore
  | endpointAdded _ _ _ hissues => exact absurd ⟨j, hissues.issues ▸ hj, hresolved⟩ hbefore
  | endpointRemoved _ _ _ hissues => exact absurd ⟨j, hissues.issues ▸ hj, hresolved⟩ hbefore
  | delivery _ _ _ _ _ hissues => exact absurd ⟨j, hissues.issues ▸ hj, hresolved⟩ hbefore
  | status projectId id userId status i hi hne hdb =>
    simp only [hdb, Table.get?_update, Option.map_eq_some_iff] at hj
    obtain ⟨k, hk, rfl⟩ := hj
    by_cases hid : issueId = id ∧ k.projectId = projectId
    · obtain ⟨rfl, hproject⟩ := hid
      simp only [hproject, and_self, decide_true, if_true] at hresolved
      subst hresolved
      exact ⟨projectId, userId, rfl⟩
    · simp only [hid, decide_false, Bool.false_eq_true, if_false] at hresolved
      exact absurd ⟨k, hk, hresolved⟩ hbefore
  | accepted req body storageId p =>
    simp only [Ingest.accepted] at hj
    rcases Ingest.issuesAfter_cases req p now db.issues hj with
      ⟨i, hi, -, -, rfl⟩ | ⟨-, -, -, rfl⟩
    · by_cases hid : issueId = Ingest.issueOf req p db.issues
      · rw [if_pos hid] at hresolved
        cases hstatus : i.status <;> simp [Ingest.recur, hstatus] at hresolved
      · rw [if_neg hid] at hresolved
        exact absurd ⟨i, hi, hresolved⟩ hbefore
    · cases hresolved

/-- After a batch the issue exists and is unresolved. -/
theorem Batch.leaves {cfg : Setup} {db : Db} {op : Int × Op} {kind : NotificationKind} {issueId : Int}
    (h : Batch cfg db op kind issueId) :
    ((exec cfg op.1 db op.2).2.issues.get? issueId).isSome = true ∧
      ¬ IsResolved issueId (exec cfg op.1 db op.2).2 := by
  obtain ⟨req, body, storageId, p, rfl, hkind, hdb⟩ := h.accepted
  rw [hdb]
  obtain ⟨i, hi, -⟩ := Ingest.issuesAfter_target req p op.1 db.issues
  refine ⟨by simp [Ingest.accepted, hi], ?_⟩
  rintro ⟨j, hj, hresolved⟩
  simp only [Ingest.accepted] at hj
  rcases Ingest.issuesAfter_cases req p op.1 db.issues hj with ⟨k, -, -, -, rfl⟩ | ⟨-, -, -, rfl⟩
  · rw [if_pos rfl] at hresolved
    cases hstatus : k.status <;> simp [Ingest.recur, hstatus] at hresolved
  · cases hresolved

/-- A batch about an issue that exists reports its regression. -/
theorem Batch.regressed {cfg : Setup} {db : Db} {op : Int × Op} {kind : NotificationKind}
    {issueId : Int} (h : Batch cfg db op kind issueId)
    (hsome : (db.issues.get? issueId).isSome = true) :
    kind = .regressed ∧ IsResolved issueId db := by
  obtain ⟨req, body, storageId, p, rfl, hkind, -⟩ := h.accepted
  rcases Ingest.upsert_cases req p op.1 db.issues with ⟨i, hi, -, -, hk, -⟩ | ⟨-, hid, -⟩
  · rw [hkind] at hk
    split at hk
    · next hresolved =>
      cases hk
      exact ⟨rfl, i, hi, hresolved⟩
    · cases hk
  · rw [hid] at hsome
    simp at hsome

/-- Outbox rows appear with the first acceptance of an event about a new or a
resolved issue and with nothing else; so an issue has one batch about its
creation, which comes first, and is resolved by hand between two batches. -/
theorem notifications_exact (cfg : Setup) :
    (∀ (ops : List (Int × Op)) (now : Int) (op : Op),
      let db := after cfg ops .empty
      let rows := queued db (exec cfg now db op).2
      ((¬ ∃ req response, FirstAccepted cfg now db op req response) → rows = []) ∧
      ∀ req response, FirstAccepted cfg now db op req response →
        ((∀ id i, db.issues.get? id = some i →
            ¬ (i.projectId = req.projectId ∧ i.fingerprint = response.fingerprint)) →
          targets rows = oneEach db req.projectId .created) ∧
        ∀ id i, db.issues.get? id = some i → i.projectId = req.projectId →
          i.fingerprint = response.fingerprint →
          targets rows = if i.status = .resolved then oneEach db req.projectId .regressed else []) ∧
    (∀ (xs ys : List (Int × Op)) (a b : Int × Op) (kind kind' : NotificationKind) (issueId : Int),
      Batch cfg (after cfg xs .empty) a kind issueId →
      Batch cfg (after cfg (xs ++ a :: ys) .empty) b kind' issueId →
      kind' = .regressed ∧
        ∃ us c vs, ys = us ++ c :: vs ∧
          (∃ projectId userId,
            c.2 = .request (.setIssueStatus projectId issueId userId .resolved)) ∧
          ¬ IsResolved issueId (after cfg (xs ++ a :: us) .empty) ∧
          IsResolved issueId (after cfg (xs ++ a :: us ++ [c]) .empty)) := by
  refine ⟨fun ops now op => ⟨fun hnone => ?_, fun req response h => ?_⟩, ?_⟩
  · rcases queued_cases cfg now (after cfg ops .empty) op with
      hnil | ⟨req, body, storageId, p, kind, hop, -, hexec, -⟩
    · exact hnil
    · exact absurd ⟨req, _, ⟨body, storageId, hop⟩, by rw [hexec], rfl⟩ hnone
  · obtain ⟨p, hp, hrows⟩ := queued_firstAccepted h
    rw [hp]
    refine ⟨fun hnew => ?_, fun id i hi hproject hfingerprint => ?_⟩
    · rw [hrows, kindOf_new hnew]
    · rw [hrows, kindOf_eq (consistent_after cfg ops) hi hproject hfingerprint]
      by_cases hresolved : i.status = .resolved <;> simp [hresolved]
  · intro xs ys a b kind kind' issueId ha hb
    obtain ⟨hsome, hopen⟩ := ha.leaves
    rw [after_append, after_cons] at hb
    have hstays : ((after cfg ys (exec cfg a.1 (after cfg xs .empty) a.2).2).issues.get?
        issueId).isSome = true :=
      after_invariant (I := fun db => (db.issues.get? issueId).isSome = true)
        (fun now db op h => exec_issue_some cfg now db op h) ys hsome
    obtain ⟨hkind, hresolved⟩ := hb.regressed hstays
    refine ⟨hkind, ?_⟩
    obtain ⟨us, c, vs, u, v, rfl, hu, hstep, hbefore, hafter, -⟩ :=
      Runs.run_turns (run_eq_after cfg ys _) hopen hresolved
    rw [run_eq_after, Option.some.injEq] at hu
    simp only [step, Option.some.injEq] at hstep
    subst hu hstep
    refine ⟨us, c, vs, rfl, exec_resolves cfg c.1 _ c.2 hbefore hafter, ?_, ?_⟩
    · rwa [after_append, after_cons]
    · rwa [after_append, after_append, after_cons]

end Zbierak.Notifications
