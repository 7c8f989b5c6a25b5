import Zbierak.Server

/-!
# The activity stream replays to the status

A manual change computes its transition from a prior read, an arriving event
moves the status inside an update; both log it, each in its own form. Reading
the log back from the start gives the stored status.
-/
namespace Zbierak.StatusHistory

open Server

def statusMember (details : Value) (key : String) : Option IssueStatus :=
  ((details.get key).bind Value.asStr).bind IssueStatus.parse

/-- The transition that a row records, for the kinds that record one. -/
def moveOf (a : Activity) : Option (IssueStatus × IssueStatus) :=
  match a.kind with
  | .regression => some (.resolved, .unresolved)
  | _ =>
    match statusMember a.details "from", statusMember a.details "to" with
    | some source, some target => some (source, target)
    | _, _ => none

/-- Apply the recorded transitions in order; every one must leave the status
the one before it reached, for another status. -/
def replay : IssueStatus → List Activity → Option IssueStatus
  | status, [] => some status
  | status, a :: rest =>
    if a.kind.movesStatus then
      match moveOf a with
      | some (source, target) =>
        if source = status ∧ source ≠ target then replay target rest else none
      | none => none
    else replay status rest

/-- Activity of one issue in the order of the row ids. -/
def activityOf (db : Db) (issueId : Int) : List Activity :=
  (db.activity.rows.map Prod.snd).filter fun a => a.issueId = issueId

theorem replay_append (status : IssueStatus) (xs ys : List Activity) :
    replay status (xs ++ ys) = (replay status xs).bind fun reached => replay reached ys := by
  induction xs generalizing status with
  | nil => rfl
  | cons a xs ih =>
    simp only [List.cons_append, replay]
    split
    · split
      · split
        · exact ih _
        · rfl
      · rfl
    · exact ih _

theorem activityOf_insert {db db' : Db} {a : Activity} (h : db'.activity = db.activity.insert a)
    (issueId : Int) : activityOf db' issueId =
      activityOf db issueId ++ if a.issueId = issueId then [a] else [] := by
  rw [activityOf, h, Table.rows_insert, List.map_append, List.filter_append]
  by_cases ha : a.issueId = issueId <;> simp [activityOf, ha]

theorem activityOf_same {db db' : Db} (h : db'.activity = db.activity) (issueId : Int) :
    activityOf db' issueId = activityOf db issueId := by
  rw [activityOf, h, activityOf]

/-- The stored status of every issue is what its history says, and history is
about issues that exist. -/
structure Replays (db : Db) : Prop where
  status : ∀ id i, db.issues.get? id = some i →
    replay .unresolved (activityOf db id) = some i.status
  issues : ∀ id, db.issues.get? id = none → activityOf db id = []

theorem replays_empty : Replays .empty where
  status := by simp [Db.empty]
  issues := fun _ _ => rfl

theorem Replays.of_same {db db' : Db} (h : Replays db) (hissues : db'.issues = db.issues)
    (hactivity : db'.activity = db.activity) : Replays db' := by
  constructor
  · intro id i hi
    rw [hissues] at hi
    rw [activityOf_same hactivity, h.status id i hi]
  · intro id hid
    rw [hissues] at hid
    rw [activityOf_same hactivity, h.issues id hid]

/-- A row that records no transition. -/
theorem Replays.timeline {db db' : Db} (h : Replays db) {a : Activity}
    (hissue : (db.issues.get? a.issueId).isSome = true) (hkind : a.kind.movesStatus = false)
    (hissues : db'.issues = db.issues) (hactivity : db'.activity = db.activity.insert a) :
    Replays db' := by
  constructor
  · intro id i hi
    rw [hissues] at hi
    rw [activityOf_insert hactivity, replay_append, h.status id i hi]
    by_cases ha : a.issueId = id <;> simp [ha, replay, hkind]
  · intro id hid
    rw [hissues] at hid
    have ha : a.issueId ≠ id := by
      rintro rfl
      simp [hid] at hissue
    rw [activityOf_insert hactivity, h.issues id hid, if_neg ha]
    rfl

/-- One issue moves and the move is logged in the same step. -/
theorem Replays.move {db db' : Db} (h : Replays db) {a : Activity} {issueId : Int}
    {source target : IssueStatus} {i : Issue} (hi : db.issues.get? issueId = some i)
    (ha : a.issueId = issueId) (hkind : a.kind.movesStatus = true)
    (hmove : moveOf a = some (source, target)) (hsource : i.status = source)
    (hne : source ≠ target)
    (hsome : ∀ id, (db'.issues.get? id).isSome = (db.issues.get? id).isSome)
    (hstatus : ∀ id i j, db.issues.get? id = some i → db'.issues.get? id = some j →
      j.status = if id = issueId then target else i.status)
    (hactivity : db'.activity = db.activity.insert a) : Replays db' := by
  constructor
  · intro id j hj
    obtain ⟨i', hi'⟩ : ∃ i', db.issues.get? id = some i' := by
      rw [← Option.isSome_iff_exists, ← hsome, hj]
      rfl
    rw [activityOf_insert hactivity, replay_append, h.status id i' hi', hstatus id i' j hi' hj]
    by_cases hid : id = issueId
    · subst hid
      obtain rfl : i = i' := by simpa [hi] using hi'
      simp [ha, replay, hkind, hmove, hsource, hne]
    · simp [hid, ha, Ne.symm hid, replay]
  · intro id hid
    have hnone : db.issues.get? id = none := by
      rw [← Option.isNone_iff_eq_none, ← Option.not_isSome, ← hsome, hid]
      rfl
    have hother : a.issueId ≠ id := by
      rw [ha]
      rintro rfl
      simp [hi] at hnone
    rw [activityOf_insert hactivity, h.issues id hnone, if_neg hother]
    rfl

@[simp] theorem moveOf_status (issueId : Int) (userId : Option Int) (source target : IssueStatus)
    (now : Int) : moveOf ⟨issueId, userId, .status,
      .object [("from", .string source.asStr), ("to", .string target.asStr)], now⟩ =
        some (source, target) := by
  simp [moveOf, statusMember, Value.get, Value.lookup, Value.asStr]

@[simp] theorem moveOf_regression (issueId : Int) (userId : Option Int) (details : Value)
    (now : Int) :
    moveOf ⟨issueId, userId, .regression, details, now⟩ = some (.resolved, .unresolved) := rfl

theorem regression_accepted {env : Crates} {publicUrl : Option String}
    {req : Ingest.IngestProject} {body : Bytes} {p : Ingest.Prepared} {storageId : String}
    {now : Int} {db : Db} (hkind : Ingest.kindOf req p db.issues = some .regressed) :
    (Ingest.accepted env publicUrl req body p storageId now db).activity =
      db.activity.insert ⟨Ingest.issueOf req p db.issues, none, .regression,
        .object [("event_id", .string p.eventId)], now⟩ := by
  simp only [Ingest.accepted, hkind, if_true]

theorem Replays.accepted {db : Db} (h : Replays db) {env : Crates} {publicUrl : Option String}
    {req : Ingest.IngestProject} {body : Bytes} {p : Ingest.Prepared} {storageId : String}
    {now : Int} : Replays (Ingest.accepted env publicUrl req body p storageId now db) := by
  rcases Ingest.upsert_cases req p now db.issues with
    ⟨i, hi, -, -, hkind, hafter⟩ | ⟨-, hid, hkind, hafter⟩
  · have hsome : ∀ id, ((Ingest.issuesAfter req p now db.issues).get? id).isSome =
        (db.issues.get? id).isSome := by
      intro id
      rw [hafter, Table.get?_update, Option.isSome_map]
    have hupdate : ∀ id k j, db.issues.get? id = some k →
        (Ingest.issuesAfter req p now db.issues).get? id = some j →
        j.status = if id = Ingest.issueOf req p db.issues ∧ k.status = .resolved then .unresolved
          else k.status := by
      intro id k j hk hj
      rw [hafter, Table.get?_update, hk, Option.map_some, Option.some.injEq] at hj
      by_cases hissue : id = Ingest.issueOf req p db.issues <;> simp [← hj, hissue, Ingest.recur]
    by_cases hresolved : i.status = .resolved
    · rw [if_pos hresolved] at hkind
      refine h.move hi rfl rfl (moveOf_regression _ _ _ _) hresolved (by decide) hsome ?_
        (regression_accepted hkind)
      intro id k j hk hj
      rw [hupdate id k j hk hj]
      by_cases hissue : id = Ingest.issueOf req p db.issues
      · obtain rfl : i = k := by simpa [← hissue, hk] using hi.symm
        simp [hissue, hresolved]
      · simp [hissue]
    · rw [if_neg hresolved] at hkind
      have hactivity : (Ingest.accepted env publicUrl req body p storageId now db).activity =
          db.activity := by simp [Ingest.accepted, hkind]
      constructor
      · intro id j hj
        obtain ⟨k, hk⟩ : ∃ k, db.issues.get? id = some k := by
          rw [← Option.isSome_iff_exists, ← hsome id]
          exact Option.isSome_iff_exists.mpr ⟨j, hj⟩
        rw [activityOf_same hactivity, h.status id k hk, hupdate id k j hk hj]
        by_cases hissue : id = Ingest.issueOf req p db.issues
        · obtain rfl : i = k := by simpa [← hissue, hk] using hi.symm
          simp [hresolved]
        · simp [hissue]
      · intro id hid
        rw [activityOf_same hactivity]
        refine h.issues id ?_
        rw [← Option.isNone_iff_eq_none, ← Option.not_isSome, ← hsome id, Option.not_isSome]
        exact Option.isNone_iff_eq_none.mpr hid
  · have hactivity : (Ingest.accepted env publicUrl req body p storageId now db).activity =
        db.activity := by simp [Ingest.accepted, hkind]
    constructor
    · intro id j hj
      rw [activityOf_same hactivity]
      simp only [Ingest.accepted, hafter, Table.get?_insert] at hj
      split at hj
      · next hnew =>
        cases hj
        rw [h.issues id (by rw [hnew]; exact db.issues.get?_nextId)]
        rfl
      · exact h.status id j hj
    · intro id hnone
      rw [activityOf_same hactivity]
      simp only [Ingest.accepted, hafter, Table.get?_insert] at hnone
      split at hnone
      · cases hnone
      · exact h.issues id hnone

theorem exec_replays (cfg : Setup) (now : Int) (db : Db) (op : Op) (h : Replays db) :
    Replays (exec cfg now db op).2 := by
  have hchange := exec_change cfg now db op
  generalize exec cfg now db op = result at hchange
  cases hchange with
  | account hissues _ hactivity => exact h.of_same hissues.issues hactivity
  | endpointAdded _ _ _ hissues hactivity => exact h.of_same hissues.issues hactivity
  | endpointRemoved _ _ _ hissues hactivity => exact h.of_same hissues.issues hactivity
  | delivery _ _ _ _ _ hissues hactivity => exact h.of_same hissues.issues hactivity
  | timeline a hissue hkind hactivity hissues _ =>
    exact h.timeline hissue hkind hissues.issues hactivity
  | status projectId issueId userId status i hi hne hdb =>
    obtain ⟨hget, hproject⟩ := Issues.issueIn_some.mp hi
    have hissues := congrArg Db.issues hdb
    dsimp only at hissues
    refine h.move hget rfl rfl (moveOf_status _ _ _ _ _) rfl hne ?_ ?_ (congrArg Db.activity hdb)
    · intro id
      rw [hissues, Table.get?_update, Option.isSome_map]
    · intro id k j hk hj
      rw [hissues, Table.get?_update, hk, Option.map_some, Option.some.injEq] at hj
      by_cases hid : id = issueId
      · obtain rfl : i = k := by simpa [hid, hget] using hk
        simp [← hj, hid, hproject]
      · simp [← hj, hid]
  | accepted => exact h.accepted

/-- The row that an arriving event writes, when it writes one. -/
theorem activityOf_accepted {env : Crates} {publicUrl : Option String} {req : Ingest.IngestProject}
    {body : Bytes} {p : Ingest.Prepared} {storageId : String} {now : Int} {db : Db} (id : Int) :
    ((activityOf (Ingest.accepted env publicUrl req body p storageId now db) id).countP
        fun a => a.kind = .regression) =
      ((activityOf db id).countP fun a => a.kind = .regression) +
        if Ingest.kindOf req p db.issues = some .regressed ∧ Ingest.issueOf req p db.issues = id then 1
        else 0 := by
  by_cases hkind : Ingest.kindOf req p db.issues = some .regressed
  · rw [activityOf_insert (regression_accepted hkind), List.countP_append]
    by_cases hid : Ingest.issueOf req p db.issues = id <;> simp [hkind, hid]
  · have hactivity : (Ingest.accepted env publicUrl req body p storageId now db).activity =
        db.activity := by simp [Ingest.accepted, hkind]
    rw [activityOf_same hactivity, if_neg fun h => hkind h.1, Nat.add_zero]

/-- What one event does to the statuses: an ignored issue stays ignored, and a
regression row appears exactly when a resolved issue is opened again. -/
theorem ingest_status (cfg : Setup) (now : Int) (db : Db) (req : Ingest.IngestProject)
    (body : Bytes) (storageId : String) (id : Int) (i j : Issue)
    (hi : db.issues.get? id = some i)
    (hj : (exec cfg now db (.request (.ingest req body storageId))).2.issues.get? id = some j) :
    (i.status = .ignored → j.status = .ignored) ∧
    ((activityOf (exec cfg now db (.request (.ingest req body storageId))).2 id).countP
        fun a => a.kind = .regression) =
      ((activityOf db id).countP fun a => a.kind = .regression) +
        if i.status = .resolved ∧ j.status = .unresolved then 1 else 0 := by
  have hsame : i = j → ¬ (i.status = .resolved ∧ j.status = .unresolved) := by
    rintro rfl ⟨h, h'⟩
    rw [h] at h'
    cases h'
  rcases exec_ingest cfg now db req body storageId with
    ⟨e, h⟩ | ⟨response, -, h⟩ | ⟨p, -, -, -, -, h⟩
  · rw [h] at hj ⊢
    obtain rfl : i = j := by simpa [hi] using hj
    exact ⟨fun h => h, by rw [if_neg (hsame rfl), Nat.add_zero]⟩
  · rw [h] at hj ⊢
    obtain rfl : i = j := by simpa [Ingest.touchKey, hi] using hj
    exact ⟨fun h => h, by rw [if_neg (hsame rfl), Nat.add_zero]; rfl⟩
  · rw [h] at hj ⊢
    rw [activityOf_accepted]
    rcases Ingest.upsert_cases req p now db.issues with
      ⟨k, hk, -, -, hkind, hafter⟩ | ⟨-, hnew, hkind, hafter⟩
    · simp only [Ingest.accepted, hafter, Table.get?_update, hi, Option.map_some,
        Option.some.injEq] at hj
      by_cases hissue : id = Ingest.issueOf req p db.issues
      · obtain rfl : i = k := by simpa [← hissue, hi] using hk
        subst hj
        cases hstatus : i.status <;> simp [hkind, hissue, hstatus, Ingest.recur]
      · obtain rfl : i = j := by simpa [hissue] using hj
        exact ⟨fun h => h, by rw [if_neg (hsame rfl), if_neg fun h => hissue h.2.symm]⟩
    · have hne : id ≠ db.issues.nextId := by
        rintro rfl
        simp at hi
      obtain rfl : i = j := by simpa [Ingest.accepted, hafter, hne, hi] using hj
      exact ⟨fun h => h, by rw [if_neg (hsame rfl), if_neg fun h => hne (hnew ▸ h.2).symm]⟩

/-- After any operations the activity of every issue replays to its status;
and arriving events leave ignored issues alone and log every regression. -/
theorem activity_replays (cfg : Setup) (ops : List (Int × Op)) :
    let db := after cfg ops .empty
    (∀ id i, db.issues.get? id = some i →
      replay .unresolved (activityOf db id) = some i.status) ∧
    (∀ now req body storageId,
      let db' := (exec cfg now db (.request (.ingest req body storageId))).2
      ∀ id i j, db.issues.get? id = some i → db'.issues.get? id = some j →
        (i.status = .ignored → j.status = .ignored) ∧
        ((activityOf db' id).countP fun a => a.kind = .regression) =
          ((activityOf db id).countP fun a => a.kind = .regression) +
            if i.status = .resolved ∧ j.status = .unresolved then 1 else 0) :=
  ⟨(after_invariant (exec_replays cfg) ops replays_empty).status,
    fun now req body storageId id i j hi hj =>
      ingest_status cfg now _ req body storageId id i j hi hj⟩

end Zbierak.StatusHistory
