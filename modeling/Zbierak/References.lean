import Zbierak.Bootstrap
import Zbierak.Credentials
import Zbierak.Directory
import Zbierak.Idempotence
import Zbierak.IssueTags
import Zbierak.DeliveryRuns
import Zbierak.AuditTrail
import Zbierak.Lib.Reference

/-!
# Foreign keys

Requests read who is asking and for which project before they write, and other
requests run in between. The rows they have seen stay, and an operation that
names rows that are there keeps every foreign key of the schema.
-/
namespace Zbierak.References

open Reference Server

def HasRaw (db : Db) (id : String) : Prop := ∃ r ∈ db.rawEvents, r.id = id

/-- The foreign keys of a table. -/
def Intact (db : Db) : TableName → Prop
  | .users | .loginThrottle => True
  | .sessions => Holds (fun s => some s.2.userId) (Has db.users) db.sessions.rows
  | .projects => Holds (fun p => some p.2.createdBy) (Has db.users) db.projects.rows
  | .memberships => Holds (fun m => some m.projectId) (Has db.projects) db.memberships ∧
      Holds (fun m => some m.userId) (Has db.users) db.memberships
  | .ingestKeys => Holds (fun k => some k.2.projectId) (Has db.projects) db.ingestKeys.rows ∧
      Holds (fun k => some k.2.createdBy) (Has db.users) db.ingestKeys.rows
  | .issues => Holds (fun i => some i.2.projectId) (Has db.projects) db.issues.rows
  | .rawEvents => Holds (fun r => some r.projectId) (Has db.projects) db.rawEvents ∧
      Holds (fun r => some r.ingestKeyId) (Has db.ingestKeys) db.rawEvents
  | .events => Holds (fun e => some e.id) (HasRaw db) db.events ∧
      Holds (fun e => some e.projectId) (Has db.projects) db.events ∧
      Holds (fun e => some e.issueId) (Has db.issues) db.events
  | .comments => Holds (fun c => some c.2.issueId) (Has db.issues) db.comments.rows ∧
      Holds (fun c => some c.2.userId) (Has db.users) db.comments.rows ∧
      Holds (fun c => c.2.updatedBy) (Has db.users) db.comments.rows
  | .endpoints => Holds (fun e => some e.2.projectId) (Has db.projects) db.endpoints.rows ∧
      Holds (fun e => some e.2.createdBy) (Has db.users) db.endpoints.rows
  | .outbox => Holds (fun o => some o.2.endpointId) (Has db.endpoints) db.outbox.rows
  | .activity => Holds (fun a => some a.2.issueId) (Has db.issues) db.activity.rows ∧
      Holds (fun a => a.2.userId) (Has db.users) db.activity.rows
  | .issueTags => Holds (fun t => some t.issueId) (Has db.issues) db.issueTags
  | .apiTokens => Holds (fun t => some t.2.userId) (Has db.users) db.apiTokens.rows
  | .userAvatars => Holds (fun a => some a.userId) (Has db.users) db.userAvatars
  | .auditLog => Holds (fun r => r.2.userId) (Has db.users) db.auditLog.rows

theorem intact_empty (t : TableName) : Intact .empty t := by
  cases t <;> simp only [Intact, Db.empty, Table.rows_empty, holds_nil, and_self]

/-- The users that an account transaction is given. -/
def accountUsers : Settings.Request → List Int
  | .logout _ | .useApiToken _ => []
  | .createApiToken userId _ _ | .revokeApiToken userId _ | .changePassword userId _ _ _
  | .updateProfile userId _ _ | .deleteAvatar userId _ | .revokeOtherSessions userId _
  | .revokeSession userId _ => [userId]
  | .uploadAvatar userId targetId _ => [userId, targetId]

/-- The users that an operation is given, who have been read before. -/
def namedUsers : Op → List Int
  | .request (.setIssueStatus _ _ userId _) | .request (.replaceIssueTags _ _ userId _)
  | .request (.insertComment _ userId _ _) | .request (.updateComment _ userId _ _ _)
  | .request (.deleteComment _ userId _ _) | .request (.createIngestKey _ userId _ _)
  | .request (.revokeIngestKey _ userId _ _) | .request (.deleteWebhook _ userId _ _)
  | .request (.createSession userId _ _ _) => [userId]
  | .request (.createProject session _) => [session.userId]
  | .request (.createWebhook _ endpoint) => [endpoint.createdBy]
  | .request (.recordLogin row) => row.userId.toList
  | .request (.account request) => accountUsers request
  | .request (.ingest _ _ _) | .request (.bootstrap _ _) | .request (.writeMember _ _)
  | .request (.loginFailure _) | .request (.loginSuccess _) | .worker _ => []

/-- The projects that an operation writes to without looking at them again. -/
def namedProjects : Op → List Int
  | .request (.writeMember request _) => [request.projectId]
  | .request (.createIngestKey projectId _ _ _) => [projectId]
  | .request (.createWebhook _ endpoint) => [endpoint.projectId]
  | _ => []

structure Named (db : Db) (op : Op) : Prop where
  users : ∀ id ∈ namedUsers op, Has db.users id
  projects : ∀ id ∈ namedProjects op, Has db.projects id

/-- Nothing that other tables refer to is removed, apart from endpoints. -/
structure Lasts (db db' : Db) : Prop where
  users : ∀ id, Has db.users id → Has db'.users id
  projects : ∀ id, Has db.projects id → Has db'.projects id
  ingestKeys : ∀ id, Has db.ingestKeys id → Has db'.ingestKeys id
  issues : ∀ id, Has db.issues id → Has db'.issues id
  rawEvents : ∀ id, HasRaw db id → HasRaw db' id

theorem Lasts.refl (db : Db) : Lasts db db :=
  ⟨fun _ h => h, fun _ h => h, fun _ h => h, fun _ h => h, fun _ h => h⟩

theorem Lasts.trans {a b c : Db} (h : Lasts a b) (h' : Lasts b c) : Lasts a c where
  users id hid := h'.users id (h.users id hid)
  projects id hid := h'.projects id (h.projects id hid)
  ingestKeys id hid := h'.ingestKeys id (h.ingestKeys id hid)
  issues id hid := h'.issues id (h.issues id hid)
  rawEvents id hid := h'.rawEvents id (h.rawEvents id hid)

theorem has_iff_mem_keys {ρ : Type} {t : Table ρ} {id : Int} :
    Has t id ↔ id ∈ t.rows.map Prod.fst := by
  rw [Has, Option.isSome_iff_exists, List.mem_map]
  constructor
  · rintro ⟨r, hr⟩
    exact ⟨(id, r), t.get?_eq_some.mp hr, rfl⟩
  · rintro ⟨⟨key, r⟩, hr, rfl⟩
    exact ⟨r, t.get?_eq_some.mpr hr⟩

theorem exec_lasts (cfg : Setup) (now : Int) (db : Db) (op : Op) : Lasts db (exec cfg now db op).2 where
  users id hid := by
    rw [has_iff_mem_keys] at hid ⊢
    exact (Bootstrap.usersKept_exec cfg now db op).subset hid
  projects id hid := by
    cases Directory.exec_directory cfg now db op with
    | same h =>
      rw [h.projects]
      exact hid
    | projectCreated project userId _ _ hprojects _ =>
      rw [hprojects]
      exact hid.insert project
    | memberSet _ _ _ hprojects _ =>
      rw [hprojects]
      exact hid
  ingestKeys id hid := by
    have hwrite := Credentials.run_keys cfg db (now, op)
    rw [Credentials.run] at hwrite
    generalize (exec cfg now db op).2.ingestKeys = keys at hwrite ⊢
    cases hwrite with
    | none => exact hid
    | touched => exact hid.update _ _
    | issued => exact hid.insert _
    | revoked => exact hid.update _ _
  issues id hid := by
    have hchange := exec_change cfg now db op
    generalize exec cfg now db op = result at hchange ⊢
    cases hchange with
    | account hissues | timeline _ _ _ _ hissues | endpointAdded _ _ _ hissues
    | endpointRemoved _ _ _ hissues | delivery _ _ _ _ _ hissues =>
      rw [hissues.issues]
      exact hid
    | status projectId issueId userId status i hi hne hdb =>
      subst hdb
      exact hid.update _ _
    | accepted req body storageId p =>
      obtain ⟨i, hi⟩ := Option.isSome_iff_exists.mp hid
      obtain ⟨j, hj, -, -⟩ := Ingest.issuesAfter_old req p now db.issues hi
      exact has_of_get? hj
  rawEvents id hid := by
    obtain ⟨r, hr, hrid⟩ := hid
    exact ⟨r, (Idempotence.exec_grows cfg now db op).rawEvents.subset hr, hrid⟩

section Written

variable {db db' : Db}

/-- Rows that stay refer to rows that stay. Endpoints are another matter. -/
theorem Intact.of_same (hlasts : Lasts db db') {t : TableName} (hsame : SameTable db db' t)
    (hqueue : t ≠ .outbox) (h : Intact db t) : Intact db' t := by
  cases t with
  | users | loginThrottle => trivial
  | outbox => exact absurd rfl hqueue
  | sessions | projects | apiTokens | userAvatars | auditLog =>
    simp only [Intact, SameTable] at h hsame ⊢
    rw [hsame]
    exact h.mono hlasts.users
  | memberships | ingestKeys | endpoints =>
    simp only [Intact, SameTable] at h hsame ⊢
    rw [hsame]
    exact ⟨h.1.mono hlasts.projects, h.2.mono hlasts.users⟩
  | issues =>
    simp only [Intact, SameTable] at h hsame ⊢
    rw [hsame]
    exact h.mono hlasts.projects
  | issueTags =>
    simp only [Intact, SameTable] at h hsame ⊢
    rw [hsame]
    exact h.mono hlasts.issues
  | rawEvents =>
    simp only [Intact, SameTable] at h hsame ⊢
    rw [hsame]
    exact ⟨h.1.mono hlasts.projects, h.2.mono hlasts.ingestKeys⟩
  | events =>
    simp only [Intact, SameTable] at h hsame ⊢
    rw [hsame]
    exact ⟨h.1.mono hlasts.rawEvents, h.2.1.mono hlasts.projects, h.2.2.mono hlasts.issues⟩
  | comments =>
    simp only [Intact, SameTable] at h hsame ⊢
    rw [hsame]
    exact ⟨h.1.mono hlasts.issues, h.2.1.mono hlasts.users, h.2.2.mono hlasts.users⟩
  | activity =>
    simp only [Intact, SameTable] at h hsame ⊢
    rw [hsame]
    exact ⟨h.1.mono hlasts.issues, h.2.mono hlasts.users⟩

/-- Endpoints go with the rows that are queued for them. -/
theorem exec_outbox (cfg : Setup) (now : Int) (op : Op) (h : Intact db .outbox) :
    Intact (exec cfg now db op).2 .outbox := by
  have hchange := exec_change cfg now db op
  generalize exec cfg now db op = result at hchange ⊢
  cases hchange with
  | account _ hqueue | timeline _ _ _ _ _ hqueue =>
    rw [Intact, hqueue.endpoints, hqueue.outbox]
    exact h
  | status projectId issueId userId status i hi hne hdb =>
    subst hdb
    exact h
  | endpointAdded e hendpoints houtbox =>
    rw [Intact, hendpoints, houtbox]
    exact Holds.mono h fun id hid => hid.insert e
  | endpointRemoved endpointId hendpoints houtbox =>
    rw [Intact, hendpoints, houtbox]
    exact Holds.cascade (fun k r hk => of_decide_eq_true hk) h
  | delivery id f houtbox hf hendpoints =>
    rw [Intact, hendpoints, houtbox]
    exact Holds.update h _ fun _ row k hk => .inl (by rwa [(hf row).1] at hk)
  | accepted req body storageId p =>
    dsimp only [Intact, Ingest.accepted]
    split
    · refine Holds.insertAll h fun row hrow _ k hk => ?_
      obtain ⟨-, -, -, e, he⟩ := Delivery.mem_batch hrow
      obtain rfl := Option.mem_some_iff.mp hk
      exact has_of_get? he
    · exact h

theorem Intact.addActivity (h : Intact db .activity) {a : Activity}
    (hissues : ∀ id, Has db.issues id → Has db'.issues id) (husers : db'.users = db.users)
    (hactivity : db'.activity = db.activity.insert a) (hissue : Has db'.issues a.issueId)
    (huser : ∀ id ∈ a.userId, Has db.users id) : Intact db' .activity := by
  rw [Intact, husers, hactivity]
  refine ⟨(h.1.mono hissues).insert fun k hk => ?_, h.2.insert huser⟩
  obtain rfl := Option.mem_some_iff.mp hk
  exact hissue

theorem Intact.record (h : Intact db .auditLog) {row : AuditRow}
    (husers : ∀ id, Has db.users id → Has db'.users id)
    (hlog : db'.auditLog = db.auditLog.insert row) (huser : ∀ id ∈ row.userId, Has db.users id) :
    Intact db' .auditLog := by
  rw [Intact, hlog]
  exact (Holds.insert h huser).mono husers

end Written

section Operations

variable {db db' : Db}

theorem written_commit {α : Type} {tx : Tx α} {written : List TableName} (h : ∀ t, Intact db t)
    (htx : ∀ db' a, tx db = .ok (db', a) → ∀ t ∈ written, Intact db' t) :
    ∀ t ∈ written, Intact (silent (commit tx db)).2 t :=
  commit_snd (fun d => ∀ t ∈ written, Intact d t) (fun t _ => h t) htx

theorem intact_pair {s t : TableName} (hs : Intact db s) (ht : Intact db t) :
    ∀ u ∈ [s, t], Intact db u := by
  simp only [List.mem_cons, List.not_mem_nil, or_false, forall_eq_or_imp, forall_eq]
  exact ⟨hs, ht⟩

/-- What account transactions write. -/
def accountTables : List TableName :=
  [.users, .sessions, .loginThrottle, .apiTokens, .userAvatars, .auditLog]

theorem intact_accountTables (hsessions : Intact db .sessions) (htokens : Intact db .apiTokens)
    (havatars : Intact db .userAvatars) (hlog : Intact db .auditLog) :
    ∀ t ∈ accountTables, Intact db t := by
  simp only [accountTables, List.mem_cons, List.not_mem_nil, or_false, forall_eq_or_imp, forall_eq]
  exact ⟨trivial, hsessions, trivial, htokens, havatars, hlog⟩

/-- A write that records its user. -/
theorem intact_audited {fault : Option AppError} {row : AuditRow} {write : Tx Unit}
    (h : Intact db .auditLog) (hrow : ∀ id ∈ row.userId, Has db.users id)
    (htx : audited fault row write db = .ok (db', ()))
    (hwrite : ∀ changed, write db = .ok (changed, ()) → changed.auditLog = db.auditLog ∧
      (∀ id, Has db.users id → Has changed.users id) ∧ Intact changed .sessions ∧
      Intact changed .apiTokens ∧ Intact changed .userAvatars) :
    ∀ t ∈ accountTables, Intact db' t := by
  obtain ⟨-, changed, hchanged, rfl⟩ := audited_ok htx
  obtain ⟨hlog, husers, hsessions, htokens, havatars⟩ := hwrite changed hchanged
  refine intact_accountTables hsessions htokens havatars (h.record husers ?_ hrow)
  rw [hlog]

theorem intact_account {env : Crates} {fault : Option AppError} {now : Int}
    {request : Settings.Request} (h : ∀ t, Intact db t)
    (hnamed : ∀ id ∈ accountUsers request, Has db.users id)
    (htx : Settings.exec env fault now request db = .ok (db', ())) :
    ∀ t ∈ accountTables, Intact db' t := by
  have hactor : ∀ userId ∈ accountUsers request, ∀ id ∈ some userId, Has db.users id := by
    rintro userId hmem id ⟨⟩
    exact hnamed userId hmem
  cases request with
  | logout cookie =>
    cases htx
    unfold Settings.destroySession
    split
    · exact intact_accountTables (Holds.delete (h .sessions) _) (h .apiTokens) (h .userAvatars)
        (h .auditLog)
    · exact fun t _ => h t
  | useApiToken bearer =>
    simp only [Settings.exec, Settings.apiTokenUser] at htx
    split at htx
    · cases htx
    · split at htx
      · cases htx
      · cases htx
        exact intact_accountTables (h .sessions) (Holds.update (h .apiTokens) _ fun _ _ _ => .inl)
          (h .userAvatars) (h .auditLog)
  | createApiToken userId name token =>
    simp only [Settings.exec, Settings.createApiTokenTx] at htx
    have huser := hactor userId (List.mem_cons_self ..)
    refine intact_audited (h .auditLog) huser htx fun changed hchanged => ?_
    split at hchanged
    · cases hchanged
    · cases hchanged
      exact ⟨rfl, fun _ => id, h .sessions, Holds.insert (h .apiTokens) huser, h .userAvatars⟩
  | revokeApiToken userId tokenId =>
    simp only [Settings.exec, Settings.revokeApiTokenTx] at htx
    refine intact_audited (h .auditLog) (hactor userId (List.mem_cons_self ..)) htx
      fun changed hchanged => ?_
    cases hchanged
    exact ⟨rfl, fun _ => id, h .sessions, Holds.update (h .apiTokens) _ fun _ _ _ => .inl,
      h .userAvatars⟩
  | changePassword userId email newHash current =>
    simp only [Settings.exec, Settings.changePasswordTx] at htx
    refine intact_audited (h .auditLog) (hactor userId (List.mem_cons_self ..)) htx
      fun changed hchanged => ?_
    cases hchanged
    have hkept := fun id (hid : Has db.users id) => hid.update (fun i _ => decide (i = userId))
      fun u => { u with passwordHash := newHash }
    exact ⟨rfl, hkept, (Holds.delete (h .sessions) _).mono hkept, Holds.mono (h .apiTokens) hkept,
      Holds.mono (h .userAvatars) hkept⟩
  | updateProfile userId targetId displayName =>
    simp only [Settings.exec, Settings.updateProfileTx] at htx
    refine intact_audited (h .auditLog) (hactor userId (List.mem_cons_self ..)) htx
      fun changed hchanged => ?_
    cases hchanged
    have hkept := fun id (hid : Has db.users id) => hid.update (fun i _ => decide (i = targetId))
      fun u => { u with displayName }
    exact ⟨rfl, hkept, Holds.mono (h .sessions) hkept, Holds.mono (h .apiTokens) hkept,
      Holds.mono (h .userAvatars) hkept⟩
  | uploadAvatar userId targetId png =>
    simp only [Settings.exec, Settings.uploadAvatarTx] at htx
    have htarget := hactor targetId (List.mem_cons_of_mem _ (List.mem_cons_self ..))
    refine intact_audited (h .auditLog) (hactor userId (List.mem_cons_self ..)) htx
      fun changed hchanged => ?_
    cases hchanged
    exact ⟨rfl, fun _ => id, h .sessions, h .apiTokens,
      Holds.upsert (h .userAvatars) (fun _ k hk => .inr (htarget k hk)) htarget⟩
  | deleteAvatar userId targetId =>
    simp only [Settings.exec, Settings.deleteAvatarTx] at htx
    refine intact_audited (h .auditLog) (hactor userId (List.mem_cons_self ..)) htx
      fun changed hchanged => ?_
    cases hchanged
    exact ⟨rfl, fun _ => id, h .sessions, h .apiTokens,
      Holds.subset (h .userAvatars) (List.filter_subset_self _)⟩
  | revokeOtherSessions userId | revokeSession userId =>
    simp only [Settings.exec, Settings.revokeOtherSessionsTx, Settings.revokeSessionTx] at htx
    refine intact_audited (h .auditLog) (hactor userId (List.mem_cons_self ..)) htx
      fun changed hchanged => ?_
    cases hchanged
    exact ⟨rfl, fun _ => id, Holds.delete (h .sessions) _, h .apiTokens, h .userAvatars⟩

/-- An issue transaction writes for an issue that is there. -/
theorem intact_status {projectId issueId userId now : Int} {status : IssueStatus}
    (h : ∀ t, Intact db t) (huser : Has db.users userId)
    (htx : Issues.setIssueStatusTx projectId issueId userId status now db = .ok (db', ())) :
    ∀ t ∈ [TableName.issues, .activity], Intact db' t := by
  obtain ⟨i, hi, ⟨-, rfl⟩ | ⟨-, rfl⟩⟩ := Issues.setIssueStatusTx_ok htx
  · exact fun t _ => h t
  · have hissue := has_of_get? (Issues.issueIn_some.mp hi).1
    refine intact_pair (Holds.update (h .issues) _ fun _ _ _ => .inl) ?_
    refine (h .activity).addActivity (fun id hid => hid.update _ _) rfl rfl (hissue.update _ _) ?_
    rintro k ⟨⟩
    exact huser

theorem intact_tags {projectId issueId userId now : Int} {tags : List String}
    (h : ∀ t, Intact db t) (huser : Has db.users userId)
    (htx : Issues.replaceIssueTags projectId issueId userId tags now db = .ok (db', ())) :
    ∀ t ∈ [TableName.issueTags, .activity], Intact db' t := by
  obtain ⟨hin, rfl | ⟨details, rfl⟩⟩ := Issues.replaceIssueTags_ok htx
  · exact fun t _ => h t
  · have hissue : Has db.issues issueId := Issues.issue_of_issueIn hin
    refine intact_pair ?_ ?_
    · dsimp only [Intact]
      rw [IssueTags.insertTags_eq]
      refine (Holds.subset (h .issueTags) (List.filter_subset_self _)).append ?_
      intro t ht k hk
      obtain ⟨tag, -, rfl⟩ := List.mem_map.mp ht
      obtain rfl := Option.mem_some_iff.mp hk
      exact hissue
    · refine (h .activity).addActivity (fun _ => id) rfl rfl hissue ?_
      rintro k ⟨⟩
      exact huser

theorem intact_insertComment {projectId userId issueId now commentId : Int} {body : String}
    (h : ∀ t, Intact db t) (huser : Has db.users userId)
    (htx : Issues.insertCommentTx projectId userId issueId body now db = .ok (db', commentId)) :
    ∀ t ∈ [TableName.comments, .activity], Intact db' t := by
  obtain ⟨hin, -, rfl⟩ := Issues.insertCommentTx_ok htx
  have hissue : Has db.issues issueId := Issues.issue_of_issueIn hin
  refine intact_pair ⟨?_, ?_, ?_⟩ ?_
  · refine Holds.insert (h .comments).1 ?_
    rintro k ⟨⟩
    exact hissue
  · refine Holds.insert (h .comments).2.1 ?_
    rintro k ⟨⟩
    exact huser
  · refine Holds.insert (h .comments).2.2 ?_
    rintro k ⟨⟩
  · refine (h .activity).addActivity (fun _ => id) rfl rfl hissue ?_
    rintro k ⟨⟩
    exact huser

/-- A comment keeps its issue and its author, and the one who changed it is named. -/
theorem intact_modifyComment {projectId userId issueId commentId now : Int}
    {change : Comment → Comment} {kind : ActivityKind} (h : ∀ t, Intact db t)
    (huser : Has db.users userId)
    (htx : Issues.modifyCommentTx projectId userId issueId commentId change kind now db = .ok (db', ()))
    (hchange : ∀ c, (change c).issueId = c.issueId ∧ (change c).userId = c.userId ∧
      (change c).updatedBy = some userId) :
    ∀ t ∈ [TableName.comments, .activity], Intact db' t := by
  obtain ⟨hin, -, rfl⟩ := Issues.modifyCommentTx_ok htx
  have hissue : Has db.issues issueId := Issues.issue_of_issueIn hin
  refine intact_pair ⟨?_, ?_, ?_⟩ ?_
  · exact Holds.update (h .comments).1 _ fun _ c k hk => .inl (by rwa [(hchange c).1] at hk)
  · exact Holds.update (h .comments).2.1 _ fun _ c k hk => .inl (by rwa [(hchange c).2.1] at hk)
  · refine Holds.update (h .comments).2.2 _ fun _ c k hk => .inr ?_
    rw [(hchange c).2.2] at hk
    cases hk
    exact huser
  · refine (h .activity).addActivity (fun _ => id) rfl rfl hissue ?_
    rintro k ⟨⟩
    exact huser

theorem intact_accepted {env : Crates} {publicUrl : Option String} {req : Ingest.IngestProject}
    {body : Bytes} {p : Ingest.Prepared} {storageId : String} {now : Int} (h : ∀ t, Intact db t)
    (hlasts : Lasts db (Ingest.accepted env publicUrl req body p storageId now db))
    (hproject : Has db.projects req.projectId) (hkey : Has db.ingestKeys req.keyId) :
    ∀ t ∈ [TableName.ingestKeys, .issues, .rawEvents, .events, .issueTags, .activity],
      Intact (Ingest.accepted env publicUrl req body p storageId now db) t := by
  have hissue : Has (Ingest.issuesAfter req p now db.issues) (Ingest.issueOf req p db.issues) := by
    rcases Ingest.upsert_cases req p now db.issues with ⟨i, hi, -, -, -, hafter⟩ | ⟨-, hid, -, hafter⟩
    · rw [hafter]
      exact (has_of_get? hi).update _ _
    · rw [hafter, hid]
      exact has_new _ _
  have hraw : HasRaw (Ingest.accepted env publicUrl req body p storageId now db) storageId :=
    ⟨_, List.mem_append_right _ (List.mem_singleton_self _), rfl⟩
  simp only [List.mem_cons, List.not_mem_nil, or_false, forall_eq_or_imp, forall_eq]
  refine ⟨⟨?_, ?_⟩, ?_, ⟨?_, ?_⟩, ⟨?_, ?_, ?_⟩, ?_, ⟨?_, ?_⟩⟩
  · exact Holds.update (h .ingestKeys).1 _ fun _ _ _ => .inl
  · exact Holds.update (h .ingestKeys).2 _ fun _ _ _ => .inl
  · dsimp only [Intact, Ingest.accepted]
    rcases Ingest.upsert_cases req p now db.issues with ⟨-, -, -, -, -, hafter⟩ | ⟨-, -, -, hafter⟩
    · rw [hafter]
      exact Holds.update (h .issues) _ fun _ _ _ => .inl
    · rw [hafter]
      refine Holds.insert (h .issues) ?_
      rintro k ⟨⟩
      exact hproject
  · refine (h .rawEvents).1.append (holds_singleton ?_)
    rintro k ⟨⟩
    exact hproject
  · refine ((h .rawEvents).2.append (holds_singleton ?_)).mono hlasts.ingestKeys
    rintro k ⟨⟩
    exact hkey
  · refine ((h .events).1.mono hlasts.rawEvents).append (holds_singleton ?_)
    rintro k ⟨⟩
    exact hraw
  · refine (h .events).2.1.append (holds_singleton ?_)
    rintro k ⟨⟩
    exact hproject
  · refine ((h .events).2.2.mono hlasts.issues).append (holds_singleton ?_)
    rintro k ⟨⟩
    exact hissue
  · dsimp only [Intact, Ingest.accepted]
    rw [IssueTags.mergeLabels_eq]
    refine (Holds.mono (h .issueTags) hlasts.issues).append fun t ht k hk => ?_
    obtain ⟨tag, -, rfl⟩ := List.mem_map.mp ht
    obtain rfl := Option.mem_some_iff.mp hk
    exact hissue
  · dsimp only [Ingest.accepted]
    split
    · refine ((h .activity).1.mono hlasts.issues).insert ?_
      rintro k ⟨⟩
      exact hissue
    · exact (h .activity).1.mono hlasts.issues
  · dsimp only [Ingest.accepted]
    split
    · exact (h .activity).2.insert fun k hk => (Option.not_mem_none k hk).elim
    · exact (h .activity).2

theorem has_findOrInsertUser {argon2 : Except String String} {form : Projects.MemberForm} {userId : Int}
    (hfound : Projects.findOrInsertUser db argon2 form = .ok (db', userId)) : Has db'.users userId := by
  simp only [Projects.findOrInsertUser] at hfound
  split at hfound
  · next id u hfind =>
    cases hfound
    exact has_of_get? (db.users.find?_some hfind).1
  · obtain ⟨hash, -, hfound⟩ := Except.bind_ok hfound
    obtain ⟨rfl, rfl⟩ := Projects.insertUser_ok hfound
    exact has_new _ _

theorem intact_writeMember {request : Projects.CheckedMember} {argon2 : Except String String}
    (h : ∀ t, Intact db t) (hproject : Has db.projects request.projectId)
    (htx : Projects.writeMember request argon2 db = .ok (db', ())) :
    ∀ t ∈ [TableName.users, .memberships], Intact db' t := by
  obtain ⟨⟨db₁, userId⟩, hfound, htx⟩ := Except.bind_ok htx
  obtain ⟨-, users, hkept, hdb⟩ := Projects.findOrInsertUser_ok hfound
  have htarget := has_findOrInsertUser hfound
  subst hdb
  dsimp only at htx
  split at htx
  · cases htx
  split at htx
  · cases htx
  cases htx
  refine intact_pair trivial ⟨Holds.upsert (h .memberships).1 (fun _ _ => .inl) ?_,
    Holds.upsert ((h .memberships).2.mono fun id hid => hid.extended hkept) (fun _ _ => .inl) ?_⟩
  · rintro k ⟨⟩
    exact hproject
  · rintro k ⟨⟩
    exact htarget

theorem intact_createIngestKey {env : Crates} {projectId userId keyId : Int} {name key : String}
    (h : ∀ t, Intact db t) (hproject : Has db.projects projectId) (huser : Has db.users userId)
    (htx : Projects.createIngestKey env projectId userId name key db = .ok (db', keyId)) :
    ∀ t ∈ [TableName.ingestKeys], Intact db' t := by
  obtain ⟨checked, -, htx⟩ := Except.bind_ok htx
  dsimp only at htx
  split at htx
  · cases htx
  · cases htx
    intro t ht
    obtain rfl := List.mem_singleton.mp ht
    refine ⟨Holds.insert (h .ingestKeys).1 ?_, Holds.insert (h .ingestKeys).2 ?_⟩
    · rintro k ⟨⟩
      exact hproject
    · rintro k ⟨⟩
      exact huser

theorem exec_written (cfg : Setup) (now : Int) {op : Op} (h : ∀ t, Intact db t)
    (hnamed : Named db op) : ∀ t ∈ op.writes, t ≠ .outbox → Intact (exec cfg now db op).2 t := by
  have hlasts := exec_lasts cfg now db op
  have hframe := exec_frame cfg now db op
  obtain ⟨husers, hprojects⟩ := hnamed
  cases op with
  | worker w =>
    intro t ht hqueue
    exact absurd (List.mem_singleton.mp ht) hqueue
  | request r =>
    cases r with
    | ingest req body storageId =>
      have hcases := Ingest.ingest_cases cfg.env cfg.publicUrl req body storageId now db
      simp only [exec, execRequest] at hlasts ⊢
      generalize Ingest.ingest cfg.env cfg.publicUrl req body storageId now db = result at hcases hlasts ⊢
      intro t ht hqueue
      cases hcases with
      | refused e => exact h t
      | repeated p hash issueId fingerprint =>
        by_cases hkeys : t = .ingestKeys
        · subst hkeys
          exact ⟨Holds.update (h .ingestKeys).1 _ fun _ _ _ => .inl,
            Holds.update (h .ingestKeys).2 _ fun _ _ _ => .inl⟩
        · refine (h t).of_same hlasts ?_ hqueue
          cases t with
          | ingestKeys => exact absurd rfl hkeys
          | _ => rfl
      | accepted p hp hraw hid hproject hkey hevent =>
        refine intact_accepted h hlasts hproject hkey t ?_
        simp only [Op.writes, Request.writes, List.mem_cons, List.not_mem_nil, or_false] at ht ⊢
        rcases ht with rfl | rfl | rfl | rfl | rfl | rfl | rfl
        all_goals first | exact absurd rfl hqueue | simp
    | setIssueStatus projectId issueId userId status =>
      have huser := husers userId (List.mem_cons_self ..)
      exact fun t ht _ => written_commit h (fun db' a htx => intact_status h huser htx) t ht
    | replaceIssueTags projectId issueId userId tags =>
      have huser := husers userId (List.mem_cons_self ..)
      exact fun t ht _ => written_commit h (fun db' a htx => intact_tags h huser htx) t ht
    | insertComment projectId userId issueId body =>
      have huser := husers userId (List.mem_cons_self ..)
      exact fun t ht _ => written_commit h (fun db' a htx => intact_insertComment h huser htx) t ht
    | updateComment projectId userId issueId commentId body =>
      have huser := husers userId (List.mem_cons_self ..)
      refine fun t ht _ => written_commit h (fun db' a htx => ?_) t ht
      rw [Issues.updateCommentTx] at htx
      exact intact_modifyComment h huser htx fun _ => ⟨rfl, rfl, rfl⟩
    | deleteComment projectId userId issueId commentId =>
      have huser := husers userId (List.mem_cons_self ..)
      refine fun t ht _ => written_commit h (fun db' a htx => ?_) t ht
      rw [Issues.deleteCommentTx] at htx
      exact intact_modifyComment h huser htx fun _ => ⟨rfl, rfl, rfl⟩
    | bootstrap argon2 form =>
      intro t ht _
      obtain rfl := List.mem_singleton.mp ht
      trivial
    | createProject session form =>
      have huser := husers session.userId (List.mem_cons_self ..)
      intro t ht _
      refine written_commit h (fun db' a htx => ?_) t ht
      obtain ⟨name, slug, description, -, -, rfl⟩ := Projects.createProject_ok htx
      refine intact_pair (Holds.insert (h .projects) ?_) ⟨?_, ?_⟩
      · rintro k ⟨⟩
        exact huser
      · refine ((h .memberships).1.mono fun id hid => hid.insert _).append (holds_singleton ?_)
        rintro k ⟨⟩
        exact has_new _ _
      · refine (h .memberships).2.append (holds_singleton ?_)
        rintro k ⟨⟩
        exact huser
    | writeMember request argon2 =>
      have hproject := hprojects request.projectId (List.mem_cons_self ..)
      exact fun t ht _ => written_commit h (fun db' a htx => intact_writeMember h hproject htx) t ht
    | createIngestKey projectId userId name key =>
      have huser := husers userId (List.mem_cons_self ..)
      have hproject := hprojects projectId (List.mem_cons_self ..)
      exact fun t ht _ =>
        written_commit h (fun db' a htx => intact_createIngestKey h hproject huser htx) t ht
    | revokeIngestKey projectId userId keyId slug =>
      have huser := husers userId (List.mem_cons_self ..)
      refine fun t ht _ => written_commit h (fun db' a htx => ?_) t ht
      rw [AuditTrail.revokeIngestKey_eq] at htx
      obtain ⟨-, changed, hchanged, rfl⟩ := audited_ok htx
      dsimp only [AuditTrail.revokeKeyWrite] at hchanged
      split at hchanged
      · cases hchanged
      · cases hchanged
        refine intact_pair ⟨Holds.update (h .ingestKeys).1 _ fun _ _ _ => .inl,
          Holds.update (h .ingestKeys).2 _ fun _ _ _ => .inl⟩ ((h .auditLog).record (fun _ => id) rfl ?_)
        rintro k ⟨⟩
        exact huser
    | createWebhook slug endpoint =>
      have huser := husers endpoint.createdBy (List.mem_cons_self ..)
      have hproject := hprojects endpoint.projectId (List.mem_cons_self ..)
      refine fun t ht _ => written_commit h (fun db' a htx => ?_) t ht
      rw [AuditTrail.createWebhookTx_eq] at htx
      obtain ⟨-, changed, hchanged, rfl⟩ := audited_ok htx
      cases hchanged
      refine intact_pair ⟨Holds.insert (h .endpoints).1 ?_, Holds.insert (h .endpoints).2 ?_⟩
        ((h .auditLog).record (fun _ => id) rfl ?_)
      · rintro k ⟨⟩
        exact hproject
      · rintro k ⟨⟩
        exact huser
      · rintro k ⟨⟩
        exact huser
    | deleteWebhook projectId userId webhookId slug =>
      have huser := husers userId (List.mem_cons_self ..)
      have hwritten : ∀ t ∈ [TableName.endpoints, .auditLog],
          Intact (silent (commit (Webhooks.deleteWebhookTx projectId userId webhookId slug) db)).2 t := by
        refine written_commit h fun db' a htx => ?_
        rw [AuditTrail.deleteWebhookTx_eq] at htx
        obtain ⟨-, changed, hchanged, rfl⟩ := audited_ok htx
        dsimp only [AuditTrail.deleteWebhookWrite] at hchanged
        split at hchanged
        · cases hchanged
        · cases hchanged
          refine intact_pair ⟨Holds.delete (h .endpoints).1 _, Holds.delete (h .endpoints).2 _⟩
            ((h .auditLog).record (fun _ => id) rfl ?_)
          rintro k ⟨⟩
          exact huser
      intro t ht hqueue
      simp only [Op.writes, Request.writes, List.mem_cons, List.not_mem_nil, or_false] at ht
      rcases ht with rfl | rfl | rfl
      · exact hwritten _ (by simp)
      · exact absurd rfl hqueue
      · exact hwritten _ (by simp)
    | loginFailure email | loginSuccess email =>
      intro t ht _
      obtain rfl := List.mem_singleton.mp ht
      trivial
    | createSession userId token csrf sessionDays =>
      have huser := husers userId (List.mem_cons_self ..)
      refine fun t ht _ => written_commit h (fun db' a htx t ht => ?_) t ht
      obtain ⟨-, rfl⟩ := Auth.createSession_ok htx
      obtain rfl := List.mem_singleton.mp ht
      refine Holds.insert (h .sessions) ?_
      rintro k ⟨⟩
      exact huser
    | recordLogin row =>
      intro t ht _
      obtain rfl := List.mem_singleton.mp ht
      exact (h .auditLog).record (fun _ => id) rfl fun id hid =>
        husers id (Option.mem_toList.mpr hid)
    | account request =>
      exact fun t ht _ => written_commit h (fun db' a htx => intact_account h husers htx) t ht

/-- An operation that names users and projects that are there keeps every foreign
key. -/
theorem exec_intact (cfg : Setup) (now : Int) {op : Op} (h : ∀ t, Intact db t) (hnamed : Named db op)
    (t : TableName) : Intact (exec cfg now db op).2 t := by
  by_cases hqueue : t = .outbox
  · rw [hqueue]
    exact exec_outbox cfg now op (h .outbox)
  · by_cases hwrites : op.writes.contains t = false
    · exact (h t).of_same (exec_lasts cfg now db op) (exec_frame cfg now db op t hwrites) hqueue
    · exact exec_written cfg now h hnamed t (by simpa using hwrites) hqueue

end Operations

end Zbierak.References
