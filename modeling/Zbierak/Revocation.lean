import Zbierak.Lib.Runs
import Zbierak.Ingest
import Zbierak.Projects

/-!
# Revocation of ingestion keys

An ingest request looks its key up before its body is read and does not look
again in its transaction. Requests are numbered in the order in which they were
authenticated.
-/
namespace Zbierak.Revocation

open Ingest (IngestProject)

/-- An authenticated ingest request, with its body once that is read. -/
structure Pending where
  number : Nat
  req : IngestProject
  body : Option Bytes
  deriving DecidableEq, Repr

structure World where
  db : Db
  clock : Int
  arrivals : Nat
  requests : List Pending

inductive Label where
  | tick (seconds : Nat)
  | authenticate (bearer slug : String)
  | readBody (request : Pending) (body : Except AppError Bytes)
  | transact (request : Pending) (storageId : String)
  | revoke (projectId userId keyId : Int) (slug : String)
  | drop (request : Pending)

section Steps

variable (env : Crates) (publicUrl : Option String) (w : World)

def step : Label → Option World
  | .tick seconds => some { w with clock := w.clock + seconds }
  | .authenticate bearer slug =>
    match Auth.ingestKeyProject env w.db bearer slug with
    | .ok (keyId, projectId) =>
      some { w with
        arrivals := w.arrivals + 1
        requests := ⟨w.arrivals, ⟨keyId, projectId, slug⟩, none⟩ :: w.requests }
    | .error _ => some w
  | .readBody r body =>
    if r ∈ w.requests ∧ r.body = none then
      match body with
      | .ok body => some { w with requests := { r with body := some body } :: w.requests.erase r }
      | .error _ => some { w with requests := w.requests.erase r }
    else none
  | .transact r storageId =>
    if r ∈ w.requests then
      r.body.map fun body =>
        { w with
          db := (Ingest.ingest env publicUrl r.req body storageId w.clock w.db).2
          requests := w.requests.erase r }
    else none
  | .revoke projectId userId keyId slug =>
    some { w with db := (commit (Projects.revokeIngestKey projectId userId keyId slug w.clock) w.db).2 }
  | .drop r => some { w with requests := w.requests.erase r }

/-- No request authenticated with the key before the first `number` arrivals were
over brings a valid event that is not stored yet to its transaction. -/
def NothingLate (keyId : Int) (number : Nat) : Label → Prop
  | .transact r _ =>
    r.number < number → r.req.keyId = keyId → ∀ body ∈ r.body,
      ∀ p ∈ (Ingest.prepare env body).toOption,
        (Ingest.findRaw w.db r.req.projectId p.eventId).isSome = true
  | _ => True

end Steps

instance (env : Crates) (w : World) (keyId : Int) (number : Nat) :
    ∀ label, Decidable (NothingLate env w keyId number label)
  | .transact _ _ => by unfold NothingLate; infer_instance
  | .tick _ | .authenticate _ _ | .readBody _ _ | .revoke _ _ _ _ | .drop _ => isTrue trivial

def Revoked (db : Db) (keyId : Int) : Prop :=
  ∃ k, db.ingestKeys.get? keyId = some k ∧ k.revokedAt ≠ none

/-- Stored events that were authenticated with the key. -/
def rawRows (db : Db) (keyId : Int) : List RawEvent :=
  db.rawEvents.filter fun r => r.ingestKeyId = keyId

theorem revokeIngestKey_revokes {db db' : Db} {projectId userId keyId now : Int} {slug : String}
    (h : Projects.revokeIngestKey projectId userId keyId slug now db = .ok (db', ())) :
    Revoked db' keyId := by
  simp only [Projects.revokeIngestKey] at h
  split at h
  · cases h
  · next hlive =>
    cases h
    simp only [List.isEmpty_iff] at hlive
    obtain ⟨⟨id, k⟩, hk⟩ := List.exists_mem_of_ne_nil _ hlive
    rw [Table.mem_select, decide_eq_true_eq] at hk
    obtain ⟨hget, rfl, hproject, hunrevoked⟩ := hk
    refine ⟨{ k with revokedAt := some now }, ?_, by simp⟩
    change (db.ingestKeys.update _ _).get? id = _
    simp [hget, hproject, hunrevoked]

section Proofs

variable {env : Crates} {publicUrl : Option String} {w w' : World} {keyId : Int} {number : Nat}

/-- A rewritten key keeps the time of its revocation. -/
theorem Revoked.update {db : Db} (h : Revoked db keyId) {p : Int → IngestKey → Bool}
    {f : IngestKey → IngestKey} {keys : Table IngestKey} (hkeys : keys = db.ingestKeys.update p f)
    (hf : ∀ k, p keyId k = true → (f k).revokedAt = k.revokedAt ∨ (f k).revokedAt ≠ none) :
    Revoked { db with ingestKeys := keys } keyId := by
  obtain ⟨k, hk, hrevoked⟩ := h
  subst hkeys
  refine ⟨if p keyId k then f k else k, by simp [hk], ?_⟩
  split
  · next hp =>
    rcases hf k hp with hsame | hset
    · rw [hsame]
      exact hrevoked
    · exact hset
  · exact hrevoked

/-- What holds from the revocation on; `rows` are the events stored until then. -/
structure Since (keyId : Int) (number : Nat) (rows : List RawEvent) (w : World) : Prop where
  revoked : Revoked w.db keyId
  arrivals : number ≤ w.arrivals
  later : ∀ r ∈ w.requests, number ≤ r.number → r.req.keyId ≠ keyId
  rows : rawRows w.db keyId = rows

/-- Numbers that are given out are used. -/
def Numbered (w : World) : Prop := ∀ r ∈ w.requests, r.number < w.arrivals

theorem numbered_step {label : Label} (h : Numbered w) (hstep : step env publicUrl w label = some w') :
    Numbered w' := by
  have herase : ∀ r, ∀ r' ∈ w.requests.erase r, r'.number < w.arrivals :=
    fun r r' hr' => h r' (List.mem_of_mem_erase hr')
  cases label with
  | tick seconds =>
    cases hstep
    exact h
  | authenticate bearer slug =>
    simp only [step] at hstep
    split at hstep <;> cases hstep
    · intro r hr
      rcases List.mem_cons.mp hr with rfl | hr
      · exact Nat.lt_succ_self _
      · exact Nat.lt_succ_of_lt (h r hr)
    · exact h
  | readBody r body =>
    simp only [step] at hstep
    split at hstep
    · next hr =>
      split at hstep <;> cases hstep
      · intro r' hr'
        rcases List.mem_cons.mp hr' with rfl | hr'
        · exact h r hr.1
        · exact herase r r' hr'
      · exact herase r
    · cases hstep
  | transact r storageId =>
    simp only [step] at hstep
    split at hstep
    · obtain ⟨body, -, rfl⟩ := Option.map_eq_some_iff.mp hstep
      exact herase r
    · cases hstep
  | revoke projectId userId keyId slug =>
    cases hstep
    exact h
  | drop r =>
    cases hstep
    exact herase r

/-- A transaction for another key, or one that stores nothing, leaves the rows of
the key. -/
theorem rawRows_ingest {req : IngestProject} {body : Bytes} {storageId : String} {now : Int} {db : Db}
    (h : req.keyId = keyId → ∀ p, Ingest.prepare env body = .ok p →
      (Ingest.findRaw db req.projectId p.eventId).isSome = true) :
    rawRows (Ingest.ingest env publicUrl req body storageId now db).2 keyId = rawRows db keyId := by
  have hcases := Ingest.ingest_cases env publicUrl req body storageId now db
  generalize Ingest.ingest env publicUrl req body storageId now db = result at hcases
  cases hcases with
  | refused | repeated => rfl
  | accepted p hp hraw =>
    have hother : req.keyId ≠ keyId := by
      intro hkey
      have hstored := h hkey p hp
      simp [hraw] at hstored
    simp [rawRows, Ingest.accepted, Ingest.rawRow, List.filter_append, hother]

theorem revoked_ingest {req : IngestProject} {body : Bytes} {storageId : String} {now : Int} {db : Db}
    (h : Revoked db keyId) :
    Revoked (Ingest.ingest env publicUrl req body storageId now db).2 keyId := by
  have hcases := Ingest.ingest_cases env publicUrl req body storageId now db
  generalize Ingest.ingest env publicUrl req body storageId now db = result at hcases
  cases hcases with
  | refused => exact h
  | repeated | accepted => exact h.update rfl fun _ _ => .inl rfl

theorem since_step {rows : List RawEvent} {label : Label} (h : Since keyId number rows w)
    (hlate : NothingLate env w keyId number label) (hstep : step env publicUrl w label = some w') :
    Since keyId number rows w' := by
  have herase : ∀ r, ∀ r' ∈ w.requests.erase r, number ≤ r'.number → r'.req.keyId ≠ keyId :=
    fun r r' hr' => h.later r' (List.mem_of_mem_erase hr')
  cases label with
  | tick seconds =>
    cases hstep
    exact ⟨h.revoked, h.arrivals, h.later, h.rows⟩
  | authenticate bearer slug =>
    simp only [step] at hstep
    split at hstep <;> cases hstep
    · next key projectId hauth =>
      obtain ⟨k, hk, hlive⟩ := Auth.ingestKeyProject_live hauth
      refine ⟨h.revoked, Nat.le_succ_of_le h.arrivals, fun r hr hnumber => ?_, h.rows⟩
      rcases List.mem_cons.mp hr with rfl | hr
      · rintro rfl
        obtain ⟨k', hk', hrevoked⟩ := h.revoked
        rw [hk] at hk'
        cases hk'
        exact hrevoked hlive
      · exact h.later r hr hnumber
    · exact h
  | readBody r body =>
    simp only [step] at hstep
    split at hstep
    · next hr =>
      split at hstep <;> cases hstep
      · refine ⟨h.revoked, h.arrivals, fun r' hr' hnumber => ?_, h.rows⟩
        rcases List.mem_cons.mp hr' with rfl | hr'
        · exact h.later r hr.1 hnumber
        · exact herase r r' hr' hnumber
      · exact ⟨h.revoked, h.arrivals, herase r, h.rows⟩
    · cases hstep
  | transact r storageId =>
    simp only [step] at hstep
    split at hstep
    · next hr =>
      obtain ⟨body, hbody, rfl⟩ := Option.map_eq_some_iff.mp hstep
      refine ⟨revoked_ingest h.revoked, h.arrivals, herase r, (rawRows_ingest ?_).trans h.rows⟩
      intro hkey p hp
      by_cases hnumber : r.number < number
      · exact hlate hnumber hkey body hbody p (by simp [hp, Except.toOption])
      · exact absurd hkey (h.later r hr (Nat.not_lt.mp hnumber))
    · cases hstep
  | revoke projectId userId otherId slug =>
    cases hstep
    rcases commit_cases (Projects.revokeIngestKey projectId userId otherId slug w.clock) w.db with
      ⟨db, u, htx, hcommit⟩ | ⟨e, -, hcommit⟩
    · obtain ⟨auditLog, rfl⟩ := Projects.revokeIngestKey_ok htx
      rw [hcommit]
      exact ⟨h.revoked.update rfl fun _ _ => .inr (by simp), h.arrivals, h.later, h.rows⟩
    · rw [hcommit]
      exact ⟨h.revoked, h.arrivals, h.later, h.rows⟩
  | drop r =>
    cases hstep
    exact ⟨h.revoked, h.arrivals, herase r, h.rows⟩

/-- Once the revocation of a key is committed, no further event is stored under
it, provided that no request authenticated with it before then brings a new
event to its transaction afterwards. -/
theorem revoked_key_stores_nothing {start w₀ : World} (hstart : start.requests = [])
    {before after : List Label} (hbefore : Runs.run (step env publicUrl) before start = some w₀)
    {projectId userId : Int} {slug : String} {db : Db}
    (hrevoke : Projects.revokeIngestKey projectId userId keyId slug w₀.clock w₀.db = .ok (db, ()))
    (hlate : Runs.Along (step env publicUrl) (fun w => NothingLate env w keyId w₀.arrivals) after
      { w₀ with db })
    (hafter : Runs.run (step env publicUrl) after { w₀ with db } = some w) :
    rawRows w.db keyId = rawRows db keyId := by
  have hnumbered : Numbered w₀ :=
    Runs.run_invariant (fun s a t hs ht => numbered_step hs ht) hbefore (by simp [Numbered, hstart])
  have hsince : Since keyId w₀.arrivals (rawRows db keyId) { w₀ with db } :=
    ⟨revokeIngestKey_revokes hrevoke, Nat.le_refl _,
      fun r hr hnumber => absurd (hnumbered r hr) (Nat.not_lt.mpr hnumber), rfl⟩
  exact (Runs.along_invariant (fun s a t hs hc ht => since_step hs hc ht) hafter hlate hsince).rows

end Proofs

/-- One project with one key. -/
def Sample.demo : World where
  db := { Db.empty with
    projects := Table.empty.insert ⟨"demo", "Demo", "", 1⟩
    ingestKeys := Table.empty.insert
      ⟨1, "ci", "zbk_01234567", Auth.tokenHash Sample.crates "zbk_0123456789", 1, none, none⟩ }
  clock := 0
  arrivals := 0
  requests := []

def Sample.request (number : Nat) (body : Option Bytes) : Pending := ⟨number, ⟨1, 1, "demo"⟩, body⟩

/-- A request whose key and body are read. -/
def Sample.receive (number : Nat) : List Label := [
  .authenticate "zbk_0123456789" "demo",
  .readBody (Sample.request number none) (.ok (Sample.eventBody "m"))]

def Sample.store (number : Nat) (storageId : String) : Label :=
  .transact (Sample.request number (some (Sample.eventBody "m"))) storageId

theorem Sample.revoke_ok {w : World} {r : Db × Unit}
    (h : r ∈ (Projects.revokeIngestKey 1 1 1 "demo" w.clock w.db).toOption) :
    Projects.revokeIngestKey 1 1 1 "demo" w.clock w.db = .ok (r.1, ()) := by
  cases hresult : Projects.revokeIngestKey 1 1 1 "demo" w.clock w.db with
  | error e => simp [hresult, Except.toOption] at h
  | ok result =>
    simp only [hresult, Except.toOption, Option.mem_def, Option.some.injEq] at h
    rw [← h]

set_option maxRecDepth 20000 in
/-- A late request repeats a stored event, and a new one is not authenticated. -/
theorem revoked_key_stores_nothing_repeat :
    ∃ w₀ db w, Runs.run (step Sample.crates none)
        (Sample.receive 0 ++ Sample.receive 1 ++ [Sample.store 0 "018f"]) Sample.demo = some w₀ ∧
      Projects.revokeIngestKey 1 1 1 "demo" w₀.clock w₀.db = .ok (db, ()) ∧
      Runs.run (step Sample.crates none)
        [Sample.store 1 "0190", .authenticate "zbk_0123456789" "demo"] { w₀ with db } = some w ∧
      rawRows w.db 1 = rawRows db 1 := by
  have hrun : ∃ w₀ ∈ Runs.run (step Sample.crates none)
      (Sample.receive 0 ++ Sample.receive 1 ++ [Sample.store 0 "018f"]) Sample.demo,
      ∃ r ∈ (Projects.revokeIngestKey 1 1 1 "demo" w₀.clock w₀.db).toOption,
        (Runs.run (step Sample.crates none)
          [Sample.store 1 "0190", .authenticate "zbk_0123456789" "demo"]
          { w₀ with db := r.1 }).isSome = true ∧
        Runs.Along (step Sample.crates none) (fun w => NothingLate Sample.crates w 1 w₀.arrivals)
          [Sample.store 1 "0190", .authenticate "zbk_0123456789" "demo"] { w₀ with db := r.1 } := by
    decide +kernel
  obtain ⟨w₀, hbefore, r, hr, hafter, hlate⟩ := hrun
  obtain ⟨w, hw⟩ := Option.isSome_iff_exists.mp hafter
  have hrevoke := Sample.revoke_ok hr
  exact ⟨w₀, r.1, w, hbefore, hrevoke, hw, revoked_key_stores_nothing rfl hbefore hrevoke hlate hw⟩

set_option maxRecDepth 20000 in
/-- The key is looked up, revoked, and an event is stored under it. -/
theorem lateRequest_is_stored :
    ∃ w₀ db w, Runs.run (step Sample.crates none) (Sample.receive 0) Sample.demo = some w₀ ∧
      Projects.revokeIngestKey 1 1 1 "demo" w₀.clock w₀.db = .ok (db, ()) ∧
      Runs.run (step Sample.crates none) [Sample.store 0 "018f"] { w₀ with db } = some w ∧
      rawRows db 1 = [] ∧ (rawRows w.db 1).length = 1 := by
  have hrun : ∃ w₀ ∈ Runs.run (step Sample.crates none) (Sample.receive 0) Sample.demo,
      ∃ r ∈ (Projects.revokeIngestKey 1 1 1 "demo" w₀.clock w₀.db).toOption,
        ∃ w ∈ Runs.run (step Sample.crates none) [Sample.store 0 "018f"] { w₀ with db := r.1 },
          rawRows r.1 1 = [] ∧ (rawRows w.db 1).length = 1 := by decide +kernel
  obtain ⟨w₀, hbefore, r, hr, w, hw, hrows⟩ := hrun
  exact ⟨w₀, r.1, w, hbefore, Sample.revoke_ok hr, hw, hrows⟩

end Zbierak.Revocation
