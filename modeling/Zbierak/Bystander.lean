import Zbierak.Confidentiality
import Zbierak.IssueTags

/-!
# A user who stands by

Operations in projects that a user does not belong to, and on the sessions,
tokens and passwords of other accounts, leave every page of that user as it is:
each of them changes no row that the user may see.
-/
namespace Zbierak.Bystander

open Confidentiality Pages Readable Server
open IssuePage (Rendering)

/-- Account transactions of others that the directory does not show. -/
def ForeignAccount (env : Crates) (viewer : Int) (db : Db) : Settings.Request → Prop
  | .logout cookie => ∀ id s, db.sessions.get? id = some s → s.userId = viewer →
    ∀ token ∈ cookie, s.tokenHash ≠ Auth.tokenHash env token
  | .useApiToken bearer => ∀ id t, db.apiTokens.get? id = some t → t.userId = viewer →
    t.tokenHash ≠ Auth.tokenHash env bearer
  | .createApiToken userId _ _ | .revokeApiToken userId _ | .changePassword userId _ _ _
  | .revokeOtherSessions userId _ | .revokeSession userId _ => userId ≠ viewer
  | .updateProfile _ _ _ | .uploadAvatar _ _ _ | .deleteAvatar _ _ => False

/-- Operations that are none of the user's business. The directory shows every
account with the number of its projects, so whatever adds one is left out. -/
def Foreign (env : Crates) (viewer : Int) (db : Db) : Op → Prop
  | .request (.ingest req _ _) => isMember db req.projectId viewer = false ∧
    ∀ k, db.ingestKeys.get? req.keyId = some k → k.projectId = req.projectId
  | .request (.setIssueStatus projectId _ _ _) | .request (.replaceIssueTags projectId _ _ _)
  | .request (.insertComment projectId _ _ _) | .request (.updateComment projectId _ _ _ _)
  | .request (.deleteComment projectId _ _ _) | .request (.createIngestKey projectId _ _ _)
  | .request (.revokeIngestKey projectId _ _ _) | .request (.deleteWebhook projectId _ _ _) =>
    isMember db projectId viewer = false
  | .request (.createWebhook _ endpoint) => isMember db endpoint.projectId viewer = false
  | .request (.createSession userId _ _ _) => userId ≠ viewer
  | .request (.account request) => ForeignAccount env viewer db request
  | .request (.loginFailure _) | .request (.loginSuccess _) | .request (.recordLogin _) | .worker _ => True
  | .request (.bootstrap _ _) | .request (.createProject _ _) | .request (.writeMember _ _) => False

/-- No row of an issue that the user can read differs. -/
structure Hidden (viewer : Int) (db db' : Db) : Prop where
  sees : ∀ id, seesIssue db' viewer id = seesIssue db viewer id
  issues : (db'.issues.select fun _ i => isMember db i.projectId viewer) =
    db.issues.select fun _ i => isMember db i.projectId viewer
  tags : (db'.issueTags.filter fun t => seesIssue db viewer t.issueId) =
    db.issueTags.filter fun t => seesIssue db viewer t.issueId
  events : ∀ id, seesIssue db viewer id = true → issueEvents db' id = issueEvents db id
  comments : (db'.comments.select fun _ c => seesIssue db viewer c.issueId) =
    db.comments.select fun _ c => seesIssue db viewer c.issueId

/-- Nothing that the user may see differs. -/
structure Unseen (viewer : Int) (db db' : Db) : Prop extends Hidden viewer db db' where
  directory : (db'.users.rows.map fun u => (u.1, u.2.email, u.2.displayName)) =
    db.users.rows.map fun u => (u.1, u.2.email, u.2.displayName)
  userAvatars : db'.userAvatars = db.userAvatars
  memberships : db'.memberships = db.memberships
  projects : db'.projects = db.projects
  activity : (db'.activity.select fun _ a => seesIssue db viewer a.issueId) =
    db.activity.select fun _ a => seesIssue db viewer a.issueId
  keys : (db'.ingestKeys.select fun _ k => manages db k.projectId viewer ∧ k.revokedAt = none) =
    db.ingestKeys.select fun _ k => manages db k.projectId viewer ∧ k.revokedAt = none
  endpoints : (db'.endpoints.select fun _ e => manages db e.projectId viewer) =
    db.endpoints.select fun _ e => manages db e.projectId viewer
  sessions : (db'.sessions.select fun _ s => s.userId = viewer) =
    db.sessions.select fun _ s => s.userId = viewer
  apiTokens : (db'.apiTokens.select fun _ t => t.userId = viewer ∧ t.revokedAt = none) =
    db.apiTokens.select fun _ t => t.userId = viewer ∧ t.revokedAt = none

theorem Hidden.refl (viewer : Int) (db : Db) : Hidden viewer db db :=
  ⟨fun _ => rfl, rfl, rfl, fun _ _ => rfl, rfl⟩

theorem Unseen.refl (viewer : Int) (db : Db) : Unseen viewer db db :=
  ⟨.refl viewer db, rfl, rfl, rfl, rfl, rfl, rfl, rfl, rfl, rfl⟩

/-- The events of the issues that the user can read, as `visible` has them. -/
theorem Hidden.shownEvents {viewer : Int} {db db' : Db} (h : Hidden viewer db db') :
    (fun id => if seesIssue db viewer id = true then issueEvents db' id else []) =
      fun id => if seesIssue db viewer id = true then issueEvents db id else [] := by
  funext id
  split
  · next hsees => exact h.events id hsees
  · rfl

theorem Unseen.visible {viewer : Int} {db db' : Db} (h : Unseen viewer db db') :
    visible viewer db' = visible viewer db := by
  have hmember : ∀ p, isMember db' p viewer = isMember db p viewer := fun p => by
    rw [isMember, isMember, h.memberships]
  have hmanages : ∀ p, manages db' p viewer = manages db p viewer := fun p => by
    rw [manages, manages, h.memberships]
  have havatars : avatarSha256 db' = avatarSha256 db := by
    funext id
    rw [avatarSha256, avatarSha256, h.userAvatars]
  simp only [Confidentiality.visible, hmember, hmanages, havatars, h.sees, h.directory, h.memberships,
    h.projects, h.issues, h.tags, h.shownEvents, h.comments, h.activity, h.keys, h.endpoints, h.sessions,
    h.apiTokens]

section Issue

variable {viewer : Int} {db db' : Db} {projectId : Int}

/-- An issue of a foreign project. -/
theorem hidden_issue (hforeign : isMember db projectId viewer = false) {issueId : Int}
    (hi : (Issues.issueIn db projectId issueId).isSome = true) : seesIssue db viewer issueId = false := by
  obtain ⟨i, hi⟩ := Option.isSome_iff_exists.mp hi
  obtain ⟨hget, rfl⟩ := Issues.issueIn_some.mp hi
  rw [seesIssue, hget, Option.any_some, hforeign]

theorem manages_foreign (hforeign : isMember db projectId viewer = false) :
    manages db projectId viewer = false := by
  cases hmanages : manages db projectId viewer with
  | false => rfl
  | true => rw [isMember_of_manages hmanages] at hforeign; cases hforeign

theorem hidden_activity {a : Activity} (ha : seesIssue db viewer a.issueId = false) :
    ((db.activity.insert a).select fun _ a => seesIssue db viewer a.issueId) =
      db.activity.select fun _ a => seesIssue db viewer a.issueId :=
  db.activity.select_insert a ha

theorem unseen_setIssueStatus (hforeign : isMember db projectId viewer = false)
    {issueId userId now : Int} {status : IssueStatus}
    (h : Issues.setIssueStatusTx projectId issueId userId status now db = .ok (db', ())) :
    Unseen viewer db db' := by
  obtain ⟨i, hi, ⟨-, rfl⟩ | ⟨-, rfl⟩⟩ := Issues.setIssueStatusTx_ok h
  · exact .refl viewer _
  · have hhidden := hidden_issue hforeign (Option.isSome_of_eq_some hi)
    refine { Unseen.refl viewer db with
      sees := fun id => ?_
      issues := ?_
      activity := hidden_activity hhidden }
    · simp only [seesIssue, Table.get?_update]
      cases db.issues.get? id with
      | none => rfl
      | some j =>
        simp only [Option.map_some, Option.any_some]
        split <;> rfl
    · dsimp only
      refine Table.select_update _ fun id j _ hj => ?_
      obtain ⟨-, rfl⟩ := of_decide_eq_true hj
      exact ⟨hforeign, hforeign⟩

theorem unseen_replaceIssueTags (hforeign : isMember db projectId viewer = false)
    {issueId userId now : Int} {tags : List String}
    (h : Issues.replaceIssueTags projectId issueId userId tags now db = .ok (db', ())) :
    Unseen viewer db db' := by
  obtain ⟨hi, rfl | ⟨details, rfl⟩⟩ := Issues.replaceIssueTags_ok h
  · exact .refl viewer _
  · have hhidden := hidden_issue hforeign hi
    refine { Unseen.refl viewer db with
      tags := ?_
      activity := hidden_activity hhidden }
    rw [Issues.filter_insertTags _ _ _ _ fun tag => hhidden, List.filter_filter]
    refine List.filter_congr fun t _ => ?_
    by_cases ht : t.issueId = issueId
    · rw [ht, hhidden, Bool.false_and]
    · rw [decide_eq_true ht, Bool.and_true]

theorem unseen_insertComment (hforeign : isMember db projectId viewer = false)
    {userId issueId now commentId : Int} {body : String}
    (h : Issues.insertCommentTx projectId userId issueId body now db = .ok (db', commentId)) :
    Unseen viewer db db' := by
  obtain ⟨hi, -, rfl⟩ := Issues.insertCommentTx_ok h
  have hhidden := hidden_issue hforeign hi
  exact { Unseen.refl viewer db with
    comments := db.comments.select_insert _ hhidden
    activity := hidden_activity hhidden }

theorem unseen_modifyComment (hforeign : isMember db projectId viewer = false)
    {userId issueId commentId now : Int} {change : Comment → Comment} {kind : ActivityKind}
    (hchange : ∀ c, (change c).issueId = c.issueId)
    (h : Issues.modifyCommentTx projectId userId issueId commentId change kind now db = .ok (db', ())) :
    Unseen viewer db db' := by
  obtain ⟨hi, ⟨c, role, hc, rfl, -⟩, rfl⟩ := Issues.modifyCommentTx_ok h
  have hhidden := hidden_issue hforeign hi
  refine { Unseen.refl viewer db with
    comments := ?_
    activity := hidden_activity hhidden }
  dsimp only
  refine Table.select_update _ fun id d hd hlive => ?_
  obtain ⟨rfl, -⟩ := of_decide_eq_true hlive
  obtain rfl : c = d := Option.some.inj (hc.symm.trans hd)
  exact ⟨hhidden, (congrArg _ (hchange c)).trans hhidden⟩

end Issue

section Project

variable {viewer : Int} {db db' : Db} {projectId : Int}
  (hforeign : isMember db projectId viewer = false)

include hforeign

theorem unseen_createIngestKey {env : Crates} {userId keyId : Int} {name key : String}
    (h : Projects.createIngestKey env projectId userId name key db = .ok (db', keyId)) :
    Unseen viewer db db' := by
  obtain ⟨checked, -, h⟩ := Except.bind_ok h
  dsimp only at h
  split at h
  · cases h
  · cases h
    refine { Unseen.refl viewer db with keys := db.ingestKeys.select_insert _ ?_ }
    simp [manages_foreign hforeign]

theorem unseen_revokeIngestKey {userId keyId now : Int} {slug : String}
    (h : Projects.revokeIngestKey projectId userId keyId slug now db = .ok (db', ())) :
    Unseen viewer db db' := by
  obtain ⟨auditLog, rfl⟩ := Projects.revokeIngestKey_ok h
  refine { Unseen.refl viewer db with keys := ?_ }
  dsimp only
  refine Table.select_update _ fun id k _ hk => ?_
  obtain ⟨-, rfl, -⟩ := of_decide_eq_true hk
  simp [manages_foreign hforeign]

theorem unseen_deleteWebhook {userId webhookId : Int} {slug : String}
    (h : Webhooks.deleteWebhookTx projectId userId webhookId slug db = .ok (db', ())) :
    Unseen viewer db db' := by
  unfold Webhooks.deleteWebhookTx at h
  split at h
  · cases h
  · next e he =>
    cases h
    obtain ⟨he, hproject⟩ := Option.filter_eq_some_iff.mp he
    refine { Unseen.refl viewer db with endpoints := ?_ }
    dsimp only [Db.record]
    refine Views.select_delete fun id f hf hid => ?_
    obtain rfl := of_decide_eq_true hid
    obtain rfl : e = f := Option.some.inj (he.symm.trans hf)
    obtain rfl := of_decide_eq_true hproject
    exact manages_foreign hforeign

/-- Only the key that authenticated the request changes. -/
theorem hidden_key {keyId now : Int} (hkey : ∀ k, db.ingestKeys.get? keyId = some k → k.projectId = projectId) :
    ((db.ingestKeys.update (fun id _ => id = keyId) fun k => { k with lastUsedAt := some now }).select
      fun _ k => manages db k.projectId viewer ∧ k.revokedAt = none) =
    db.ingestKeys.select fun _ k => manages db k.projectId viewer ∧ k.revokedAt = none := by
  refine Table.select_update _ fun id k hk hid => ?_
  obtain rfl := of_decide_eq_true hid
  simp [hkey k hk, manages_foreign hforeign]

end Project

section Account

variable {env : Crates} {viewer now : Int} {db db' : Db}

/-- A transaction that only records itself beside what it writes. -/
theorem unseen_audited {α : Type} {fault : Option AppError} {row : AuditRow} {tx : Tx α} {a : α}
    (h : audited fault row tx db = .ok (db', a))
    (htx : ∀ changed, tx db = .ok (changed, a) → Unseen viewer db changed) : Unseen viewer db db' := by
  obtain ⟨-, changed, hchanged, rfl⟩ := audited_ok h
  exact { htx changed hchanged with }

/-- Sessions of others end. -/
theorem unseen_sessions {q : Int → SessionRow → Bool}
    (h : ∀ id s, db.sessions.get? id = some s → q id s = true → s.userId ≠ viewer) :
    Unseen viewer db { db with sessions := db.sessions.delete q } := by
  refine { Unseen.refl viewer db with sessions := ?_ }
  dsimp only
  exact Views.select_delete fun id s hs hq => decide_eq_false (h id s hs hq)

/-- Tokens of others change. -/
theorem unseen_apiTokens {q : Int → ApiToken → Bool} {f : ApiToken → ApiToken}
    (hf : ∀ t, (f t).userId = t.userId)
    (h : ∀ id t, db.apiTokens.get? id = some t → q id t = true → t.userId ≠ viewer) :
    Unseen viewer db { db with apiTokens := db.apiTokens.update q f } := by
  refine { Unseen.refl viewer db with apiTokens := ?_ }
  dsimp only
  refine Table.select_update _ fun id t ht hq => ?_
  simp [hf, h id t ht hq]

theorem unseen_account {request : Settings.Request} (hforeign : ForeignAccount env viewer db request)
    (h : Settings.exec env none now request db = .ok (db', ())) : Unseen viewer db db' := by
  cases request with
  | logout cookie =>
    cases h
    cases cookie with
    | none => exact .refl viewer db
    | some token =>
      exact unseen_sessions fun id s hs hq hviewer =>
        hforeign id s hs hviewer token rfl (of_decide_eq_true hq)
  | useApiToken bearer =>
    simp only [Settings.exec, Settings.apiTokenUser] at h
    split at h
    · cases h
    · split at h
      · cases h
      · cases h
        exact unseen_apiTokens (fun _ => rfl) fun id t ht hq hviewer =>
          hforeign id t ht hviewer (of_decide_eq_true hq)
  | createApiToken userId name token =>
    simp only [Settings.exec, Settings.createApiTokenTx] at h
    refine unseen_audited h fun changed hchanged => ?_
    split at hchanged
    · cases hchanged
    · cases hchanged
      refine { Unseen.refl viewer db with apiTokens := db.apiTokens.select_insert _ ?_ }
      exact decide_eq_false fun hviewer => hforeign hviewer.1
  | revokeApiToken userId tokenId =>
    simp only [Settings.exec, Settings.revokeApiTokenTx] at h
    refine unseen_audited h fun changed hchanged => ?_
    cases hchanged
    refine unseen_apiTokens (fun _ => rfl) fun id t _ hq => ?_
    obtain ⟨-, rfl, -⟩ := of_decide_eq_true hq
    exact hforeign
  | changePassword userId email newHash current =>
    simp only [Settings.exec, Settings.changePasswordTx] at h
    refine unseen_audited h fun changed hchanged => ?_
    cases hchanged
    have hsessions : Unseen viewer db { db with sessions := db.sessions.delete fun _ s =>
        s.userId = userId ∧ s.tokenHash ≠ current } := unseen_sessions fun id s _ hq => by
      obtain ⟨rfl, -⟩ := of_decide_eq_true hq
      exact hforeign
    refine { hsessions with directory := ?_ }
    rw [Table.rows_update, List.map_map]
    refine List.map_congr_left fun u _ => ?_
    simp only [Function.comp_apply]
    split <;> rfl
  | revokeOtherSessions userId current =>
    simp only [Settings.exec, Settings.revokeOtherSessionsTx] at h
    refine unseen_audited h fun changed hchanged => ?_
    cases hchanged
    refine unseen_sessions fun id s _ hq => ?_
    obtain ⟨rfl, -⟩ := of_decide_eq_true hq
    exact hforeign
  | revokeSession userId sessionId =>
    simp only [Settings.exec, Settings.revokeSessionTx] at h
    refine unseen_audited h fun changed hchanged => ?_
    cases hchanged
    refine unseen_sessions fun id s _ hq => ?_
    obtain ⟨-, rfl⟩ := of_decide_eq_true hq
    exact hforeign
  | updateProfile | uploadAvatar | deleteAvatar => exact hforeign.elim

end Account

section Ingest

variable {env : Crates} {publicUrl : Option String} {req : Ingest.IngestProject} {body : Bytes}
  {p : Ingest.Prepared} {storageId : String} {viewer now : Int} {db : Db}
  (hforeign : isMember db req.projectId viewer = false)

include hforeign

/-- The issue of the event is one of the foreign project, or a new one. -/
theorem hidden_issueOf : seesIssue db viewer (Ingest.issueOf req p db.issues) = false := by
  rcases Ingest.upsert_cases req p 0 db.issues with ⟨i, hi, hproject, -⟩ | ⟨-, hid, -⟩
  · rw [seesIssue, hi, Option.any_some, hproject, hforeign]
  · rw [hid, seesIssue, Table.get?_nextId, Option.any_none]

theorem hidden_accepted (hevent : ∀ e ∈ db.events, e.id ≠ storageId) :
    Hidden viewer db (Ingest.accepted env publicUrl req body p storageId now db) := by
  have hhidden := hidden_issueOf (p := p) hforeign
  have hother : ∀ id, seesIssue db viewer id = true → Ingest.issueOf req p db.issues ≠ id := by
    rintro id hsees rfl
    rw [hhidden] at hsees
    cases hsees
  refine { Hidden.refl viewer db with
    sees := fun id => ?_
    issues := ?_
    tags := ?_
    events := fun id hsees => ?_ }
  · change ((Ingest.issuesAfter req p now db.issues).get? id).any
      (fun i => isMember db i.projectId viewer) = _
    rw [seesIssue]
    rcases Ingest.upsert_cases req p now db.issues with ⟨-, -, -, -, -, hafter⟩ | ⟨-, -, -, hafter⟩
    · rw [hafter, Table.get?_update]
      cases db.issues.get? id with
      | none => rfl
      | some i =>
        simp only [Option.map_some, Option.any_some]
        split <;> rfl
    · rw [hafter, Table.get?_insert]
      split
      · next hnew =>
        rw [hnew, Table.get?_nextId]
        exact hforeign
      · rfl
  · simp only [Ingest.accepted]
    rcases Ingest.upsert_cases req p now db.issues with ⟨i, hi, hproject, -, -, hafter⟩ | ⟨-, -, -, hafter⟩
    · rw [hafter]
      refine Table.select_update _ fun id j hj hid => ?_
      obtain rfl := of_decide_eq_true hid
      obtain rfl : i = j := Option.some.inj (hi.symm.trans hj)
      rw [← hproject] at hforeign
      exact ⟨hforeign, hforeign⟩
    · rw [hafter]
      exact db.issues.select_insert _ hforeign
  · simp only [Ingest.accepted, IssueTags.mergeLabels_eq, List.filter_append, List.filter_map,
      Function.comp_def, hhidden]
    simp
  · simp only [issueEvents, Ingest.accepted, List.flatMap_append, List.flatMap_cons,
      if_neg (hother id hsees), List.flatMap_nil, List.append_nil]
    refine List.flatMap_congr fun e he => ?_
    have hid : storageId ≠ e.id := fun heq => hevent e he heq.symm
    simp [List.filter_append, Ingest.rawRow, hid]

theorem unseen_accepted
    (hkey : ∀ k, db.ingestKeys.get? req.keyId = some k → k.projectId = req.projectId)
    (hevent : ∀ e ∈ db.events, e.id ≠ storageId) :
    Unseen viewer db (Ingest.accepted env publicUrl req body p storageId now db) := by
  refine ⟨hidden_accepted hforeign hevent, rfl, rfl, rfl, rfl, ?_, hidden_key hforeign hkey, rfl, rfl, rfl⟩
  simp only [Ingest.accepted]
  split
  · exact hidden_activity (hidden_issueOf hforeign)
  · rfl

end Ingest

/-- An event for a foreign project, whichever way its request goes. -/
theorem hidden_ingest (cfg : Setup) (now : Int) {viewer : Int} {db : Db} {req : Ingest.IngestProject}
    (hforeign : isMember db req.projectId viewer = false) (body : Bytes) (storageId : String) :
    Hidden viewer db (exec cfg now db (.request (.ingest req body storageId))).2 := by
  rcases exec_ingest cfg now db req body storageId with
    ⟨e, h⟩ | ⟨response, -, h⟩ | ⟨p, -, -, -, hevent, h⟩ <;> rw [h]
  · exact .refl viewer db
  · exact ⟨fun _ => rfl, rfl, rfl, fun _ _ => rfl, rfl⟩
  · exact hidden_accepted hforeign hevent

theorem unseen_commit {viewer : Int} {db : Db} {α : Type} {tx : Tx α}
    (h : ∀ db' a, tx db = .ok (db', a) → Unseen viewer db db') :
    Unseen viewer db (silent (commit tx db)).2 :=
  commit_snd (Unseen viewer db) (.refl viewer db) h

/-- One foreign operation changes nothing that the user may see. -/
theorem exec_unseen (cfg : Setup) (now : Int) {viewer : Int} {db : Db} {op : Op}
    (h : Foreign cfg.env viewer db op) : Unseen viewer db (exec cfg now db op).2 := by
  cases op with
  | request r =>
    cases r with
    | ingest req body storageId =>
      obtain ⟨hforeign, hkey⟩ := h
      rcases exec_ingest cfg now db req body storageId with
        ⟨e, h⟩ | ⟨response, -, h⟩ | ⟨p, -, -, -, hevent, h⟩ <;> rw [h]
      · exact .refl viewer db
      · exact { Unseen.refl viewer db with keys := hidden_key hforeign hkey }
      · exact unseen_accepted hforeign hkey hevent
    | setIssueStatus => exact unseen_commit fun db' a htx => unseen_setIssueStatus h htx
    | replaceIssueTags => exact unseen_commit fun db' a htx => unseen_replaceIssueTags h htx
    | insertComment => exact unseen_commit fun db' a htx => unseen_insertComment h htx
    | updateComment => exact unseen_commit fun db' a htx => unseen_modifyComment h (by intro c; rfl) htx
    | deleteComment => exact unseen_commit fun db' a htx => unseen_modifyComment h (by intro c; rfl) htx
    | createIngestKey => exact unseen_commit fun db' a htx => unseen_createIngestKey h htx
    | revokeIngestKey => exact unseen_commit fun db' a htx => unseen_revokeIngestKey h htx
    | createWebhook slug endpoint =>
      refine unseen_commit fun db' a htx => ?_
      cases htx
      exact { Unseen.refl viewer db with
        endpoints := db.endpoints.select_insert _ (manages_foreign h) }
    | deleteWebhook => exact unseen_commit fun db' a htx => unseen_deleteWebhook h htx
    | createSession userId token csrf sessionDays =>
      refine unseen_commit fun db' a htx => ?_
      obtain ⟨-, rfl⟩ := Auth.createSession_ok htx
      exact { Unseen.refl viewer db with
        sessions := db.sessions.select_insert _ (decide_eq_false h) }
    | loginFailure | loginSuccess | recordLogin => exact { Unseen.refl viewer db with }
    | account request => exact unseen_commit fun db' a htx => unseen_account h htx
    | bootstrap | createProject | writeMember => exact h.elim
  | worker w =>
    cases w with
    | claim =>
      simp only [exec, execWorker]
      rcases Outbox.claim_cases now db with ⟨hc, -⟩ | ⟨id, row, -, -, hdb, -⟩
      · rw [hc]
        exact .refl viewer db
      · rw [hdb]
        exact { Unseen.refl viewer db with }
    | markDelivered | fail => exact { Unseen.refl viewer db with }

theorem visible_after (cfg : Setup) {viewer : Int} {db : Db} {ops : List (Int × Op)}
    (h : Runs.Along (step cfg) (fun db op => Foreign cfg.env viewer db op.2) ops db) :
    visible viewer db = visible viewer (after cfg ops db) := by
  refine Runs.along_invariant (I := fun s => visible viewer db = visible viewer s)
    (fun s op t hs hop hstep => ?_) (run_eq_after cfg ops db) h rfl
  obtain rfl : (exec cfg op.1 s op.2).2 = t := by simpa [step] using hstep
  rw [(exec_unseen cfg op.1 hop).visible, hs]

/-- Whatever others do in any order of operations, a user who takes no part finds
the same pages afterwards, and exports the same documents. -/
theorem bystander_pages (cfg : Setup) {viewer : Int} {db : Db} {ops : List (Int × Op)}
    (howner : Settings.isInstanceOwner db viewer = false)
    (h : Runs.Along (step cfg) (fun db op => Foreign cfg.env viewer db op.2) ops db)
    (r : Rendering) (rd : Reading) (now : Int) (csrfToken : String) (cookie : Option String) :
    (∀ view, page cfg.env r rd now (after cfg ops db) ⟨viewer, csrfToken⟩ cookie view =
      page cfg.env r rd now db ⟨viewer, csrfToken⟩ cookie view) ∧
    ∀ slug issueId,
      IssuePage.exportIssueMarkdown cfg.env r rd.visit (after cfg ops db) ⟨viewer, csrfToken⟩ slug issueId =
        IssuePage.exportIssueMarkdown cfg.env r rd.visit db ⟨viewer, csrfToken⟩ slug issueId := by
  have hvisible := visible_after cfg h
  refine ⟨fun view => (Prod.ext (userById_alike hvisible viewer)
    (serve_alike hvisible howner cfg.env r rd now csrfToken cookie view)).symm, fun slug issueId => ?_⟩
  rw [IssuePage.exportIssueMarkdown, IssuePage.exportIssueMarkdown]
  exact congrArg _ (loadIssueDetails_alike hvisible cfg.env r rd.visit slug issueId).symm

/-- Ada resolves the issue of her own project, and the worker looks for work. -/
theorem bystander_pages_bob :
    page Sample.crates Sample.rendering Sample.reading 9
        (after ⟨Sample.crates, none⟩ [(5, .request (.setIssueStatus 2 1 1 .resolved)), (6, .worker .claim)]
          (Sample.store "p" "q" "k" "s" "ours")) ⟨2, "csrf"⟩ none (.userProfile 1) =
      page Sample.crates Sample.rendering Sample.reading 9 (Sample.store "p" "q" "k" "s" "ours")
        ⟨2, "csrf"⟩ none (.userProfile 1) :=
  (@bystander_pages ⟨Sample.crates, none⟩ 2 (Sample.store "p" "q" "k" "s" "ours")
    [(5, .request (.setIssueStatus 2 1 1 .resolved)), (6, .worker .claim)] (by decide)
    ⟨rfl, fun _ _ => ⟨trivial, fun _ _ => trivial⟩⟩ Sample.rendering Sample.reading 9 "csrf" none).1 _

end Zbierak.Bystander
