import Zbierak.EventStore

/-!
# Idempotent ingestion

An accepted event stays in the store, whatever happens to its issue. A retry
finds it through the unique index, recovers the first answer from the join and
compares the digests; it writes the key's use and nothing else.
-/
namespace Zbierak.Idempotence

open Ingest (IngestProject Prepared prepare ingest findRaw acceptedResult touchKey)
open Server EventStore

/-- Raw events and events are never removed or rewritten. -/
structure Grows (db db' : Db) : Prop where
  rawEvents : db.rawEvents <+: db'.rawEvents
  events : db.events <+: db'.events

theorem Grows.refl (db : Db) : Grows db db := ⟨List.prefix_rfl, List.prefix_rfl⟩

theorem Grows.trans {a b c : Db} (h : Grows a b) (h' : Grows b c) : Grows a c :=
  ⟨h.rawEvents.trans h'.rawEvents, h.events.trans h'.events⟩

theorem Grows.of_same {db db' : Db} (h : SameIssues db db') : Grows db db' where
  rawEvents := by simp [h.rawEvents]
  events := by simp [h.events]

/-- A producer id that is taken stays taken. -/
theorem Grows.findRaw {db db' : Db} (h : Grows db db') {projectId : Int} {eventId : String}
    (hraw : (findRaw db projectId eventId).isSome = true) :
    (findRaw db' projectId eventId).isSome = true := by
  rw [Ingest.findRaw, List.find?_isSome] at hraw ⊢
  obtain ⟨r, hr, hkey⟩ := hraw
  exact ⟨r, h.rawEvents.subset hr, hkey⟩

theorem exec_grows (cfg : Setup) (now : Int) (db : Db) (op : Op) :
    Grows db (exec cfg now db op).2 := by
  have hchange := exec_change cfg now db op
  generalize exec cfg now db op = result at hchange
  cases hchange with
  | account hissues => exact .of_same hissues
  | timeline _ _ _ _ hissues => exact .of_same hissues
  | endpointAdded _ _ _ hissues => exact .of_same hissues
  | endpointRemoved _ _ _ hissues => exact .of_same hissues
  | delivery _ _ _ _ _ hissues => exact .of_same hissues
  | status projectId issueId userId status i hi hne hdb =>
    subst hdb
    exact ⟨List.prefix_rfl, List.prefix_rfl⟩
  | accepted => exact ⟨List.prefix_append _ _, List.prefix_append _ _⟩

theorem after_grows (cfg : Setup) (ops : List (Int × Op)) (db : Db) :
    Grows db (after cfg ops db) :=
  after_invariant (fun now s op h => h.trans (exec_grows cfg now s op)) ops (.refl db)

/-- The rows that an acceptance leaves for its retries. -/
structure Stored (db : Db) (projectId : Int) (p : Prepared) (issueId : Int) : Prop where
  rows : ∃ r ∈ db.rawEvents, ∃ e ∈ db.events, e.id = r.id ∧ r.projectId = projectId ∧
    r.producerEventId = p.eventId ∧ r.bodyHash = some p.bodyHash ∧ e.issueId = issueId ∧
    e.fingerprint = p.fingerprint

theorem Stored.grows {db db' : Db} {projectId issueId : Int} {p : Prepared}
    (h : Stored db projectId p issueId) (hg : Grows db db') : Stored db' projectId p issueId := by
  obtain ⟨r, hr, e, he, hrows⟩ := h.rows
  exact ⟨r, hg.rawEvents.subset hr, e, hg.events.subset he, hrows⟩

theorem acceptedResult_eq {db : Db} (h : Consistent db) {projectId issueId : Int} {p : Prepared}
    (hs : Stored db projectId p issueId) :
    acceptedResult db projectId p.eventId = .ok (some p.bodyHash, issueId, p.fingerprint) := by
  obtain ⟨r, hr, e, he, hid, rfl, hproducer, hhash, rfl, hfingerprint⟩ := hs.rows
  rw [← hproducer, ← hhash, ← hfingerprint]
  exact h.acceptedResult hr he hid

theorem findRaw_isSome {db : Db} {projectId issueId : Int} {p : Prepared}
    (hs : Stored db projectId p issueId) : (findRaw db projectId p.eventId).isSome = true := by
  obtain ⟨r, hr, e, -, -, hproject, hproducer, -⟩ := hs.rows
  rw [findRaw, List.find?_isSome]
  exact ⟨r, hr, by simp [hproject, hproducer]⟩

/-- An acceptance stores the rows that its retries look for. -/
theorem stored_of_accepted {env : Crates} {publicUrl : Option String} {req : IngestProject}
    {body : Bytes} {p : Prepared} {storageId : String} {now : Int} {db : Db} :
    Stored (Ingest.accepted env publicUrl req body p storageId now db) req.projectId p
      (Ingest.issueOf req p db.issues) where
  rows := by
    refine ⟨_, List.mem_append_right _ (List.mem_singleton_self _), _,
      List.mem_append_right _ (List.mem_singleton_self _), rfl, rfl, rfl, rfl, rfl, rfl⟩

/-- What a request with the producer id of a stored event gets. -/
theorem ingest_stored {env : Crates} {publicUrl : Option String} {db : Db} (hc : Consistent db)
    {projectId issueId : Int} {p q : Prepared} (hs : Stored db projectId p issueId)
    {again : IngestProject} {body : Bytes} {storageId : String} {now : Int}
    (hproject : again.projectId = projectId) (hq : prepare env body = .ok q)
    (hid : q.eventId = p.eventId) :
    ingest env publicUrl again body storageId now db =
      if p.bodyHash = q.bodyHash then
        (.ok ⟨q.eventId, issueId, p.fingerprint, true⟩, touchKey db again.keyId now)
      else (.error (.eventConflict q.eventId), db) := by
  subst hproject
  have hresult := acceptedResult_eq hc hs
  have hraw := findRaw_isSome hs
  rw [← hid] at hresult hraw
  have htx : Ingest.ingestTx env publicUrl again body q storageId now db =
      Ingest.repeatAccepted again q now db := by
    simp [Ingest.ingestTx, Ingest.insertRawEvent, hraw, bind, Except.bind]
  have hrepeat : Ingest.repeatAccepted again q now db =
      if p.bodyHash = q.bodyHash then
        .ok (touchKey db again.keyId now, ⟨q.eventId, issueId, p.fingerprint, true⟩)
      else .error (.eventConflict q.eventId) := by
    by_cases h : p.bodyHash = q.bodyHash <;>
      simp [Ingest.repeatAccepted, hresult, h, bind, Except.bind]
  simp only [ingest, hq]
  by_cases h : p.bodyHash = q.bodyHash
  · rw [if_pos h]
    exact commit_ok (by rw [htx, hrepeat, if_pos h])
  · rw [if_neg h]
    exact commit_error (by rw [htx, hrepeat, if_neg h])

/-- The response of a first acceptance, with what it left behind. -/
theorem accepted_of_response {cfg : Setup} {now : Int} {db : Db} {req : IngestProject}
    {body : Bytes} {storageId : String} {first : IngestResponse}
    (h : (exec cfg now db (.request (.ingest req body storageId))).1 = .ok (.ingested first))
    (hnew : first.duplicate = false) :
    ∃ p, prepare cfg.env body = .ok p ∧
      first = ⟨p.eventId, Ingest.issueOf req p db.issues, p.fingerprint, false⟩ ∧
      (exec cfg now db (.request (.ingest req body storageId))).2 =
        Ingest.accepted cfg.env cfg.publicUrl req body p storageId now db := by
  rcases exec_ingest cfg now db req body storageId with
    ⟨e, he⟩ | ⟨response, hresponse, he⟩ | ⟨p, hp, -, -, -, he⟩
  · rw [he] at h
    cases h
  · rw [he] at h
    cases h
    simp [hresponse] at hnew
  · rw [he] at h ⊢
    cases h
    exact ⟨p, hp, rfl, rfl⟩

/-- Once an event is accepted, sending the same bytes again repeats the first
answer and another body under its id is a conflict, at any later time. -/
theorem ingest_idempotent (cfg : Setup) (before between : List (Int × Op)) (now : Int)
    (req : IngestProject) (body : Bytes) (storageId : String) (first : IngestResponse)
    (hfirst : (exec cfg now (after cfg before .empty) (.request (.ingest req body storageId))).1 =
      .ok (.ingested first))
    (hnew : first.duplicate = false) :
    let db := after cfg between
      (exec cfg now (after cfg before .empty) (.request (.ingest req body storageId))).2
    (∀ (again : IngestProject) (storageId' : String) (now' : Int),
      again.projectId = req.projectId →
      ingest cfg.env cfg.publicUrl again body storageId' now' db =
        (.ok { first with duplicate := true }, touchKey db again.keyId now')) ∧
    (∀ (again : IngestProject) (other : Bytes) (q : Prepared) (storageId' : String) (now' : Int),
      again.projectId = req.projectId → prepare cfg.env other = .ok q → q.eventId = first.id →
      other ≠ body → Set.InjOn cfg.env.sha256Hex {body, other} →
      ingest cfg.env cfg.publicUrl again other storageId' now' db =
        (.error (.eventConflict first.id), db)) := by
  intro db
  obtain ⟨p, hp, rfl, hdb⟩ := accepted_of_response hfirst hnew
  have hstored : Stored db req.projectId p (Ingest.issueOf req p (after cfg before .empty).issues) := by
    refine Stored.grows ?_ (after_grows cfg between _)
    rw [hdb]
    exact stored_of_accepted
  have hconsistent : Consistent db :=
    after_invariant (exec_consistent cfg) between
      (exec_consistent cfg now _ _ (consistent_after cfg before))
  refine ⟨fun again storageId' now' hproject => ?_, ?_⟩
  · rw [ingest_stored hconsistent hstored hproject hp rfl, if_pos rfl]
  · intro again other q storageId' now' hproject hq hid hother hsha
    have hhash : ∀ {b : Bytes} {r : Prepared}, prepare cfg.env b = .ok r →
        r.bodyHash = cfg.env.sha256Hex b := Ingest.prepare_bodyHash
    have hne : ¬ p.bodyHash = q.bodyHash := by
      rw [hhash hp, hhash hq]
      intro heq
      exact hother (hsha (by simp) (by simp) heq.symm)
    rw [ingest_stored hconsistent hstored hproject hq hid, if_neg hne, hid]

set_option maxRecDepth 20000 in
/-- A retry after the issue was resolved, and another event under the same id. -/
theorem ingest_idempotent_resolved :
    let cfg : Setup := ⟨Sample.crates, none⟩
    let installed := after cfg (Server.Sample.installation.map fun r => (0, .request r)) .empty
    let stored := (exec cfg 10 installed
      (.request (.ingest ⟨1, 1, "demo"⟩ (Sample.eventBody "m") "018f"))).2
    let db := after cfg [(20, .request (.setIssueStatus 1 1 1 .resolved))] stored
    ingest Sample.crates none ⟨1, 1, "demo"⟩ (Sample.eventBody "m") "0190" 30 db =
      (.ok ⟨"e1", 1, Sample.crates.blake3Hex "message:m", true⟩, touchKey db 1 30) ∧
    ingest Sample.crates none ⟨1, 1, "demo"⟩ (Sample.eventBody "n") "0190" 30 db =
      (.error (.eventConflict "e1"), db) := by
  intro cfg installed stored db
  obtain ⟨hretry, hconflict⟩ := ingest_idempotent cfg
    (Server.Sample.installation.map fun r => (0, .request r))
    [(20, .request (.setIssueStatus 1 1 1 .resolved))] 10 ⟨1, 1, "demo"⟩ (Sample.eventBody "m") "018f"
    ⟨"e1", 1, Sample.crates.blake3Hex "message:m", false⟩ rfl rfl
  obtain ⟨q, hq, hid⟩ : ∃ q, prepare Sample.crates (Sample.eventBody "n") = .ok q ∧
    q.eventId = "e1" := ⟨_, rfl, rfl⟩
  have hsha : Set.InjOn Sample.crates.sha256Hex {Sample.eventBody "m", Sample.eventBody "n"} := by
    rw [Set.injOn_pair]
    exact fun h => absurd h (by decide +kernel)
  exact ⟨hretry ⟨1, 1, "demo"⟩ "0190" 30 rfl,
    hconflict ⟨1, 1, "demo"⟩ (Sample.eventBody "n") q "0190" 30 rfl hq hid (by decide +kernel) hsha⟩

end Zbierak.Idempotence
