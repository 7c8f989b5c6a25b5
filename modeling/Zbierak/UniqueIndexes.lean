import Zbierak.Mediation
import Zbierak.Lib.Unique

/-!
# Unique indexes

Statements read a table before they write it, insert or ignore, or leave it to an
index to refuse the row. Whatever they do in whatever order, no unique index of
the schema holds a key twice.
-/
namespace Zbierak.UniqueIndexes

open UniqueIndex Server

/-- The unique indexes of a table, besides its integer key. -/
def Unique (db : Db) : TableName → Prop
  | .users => Column (fun u => Nocase.key u.email) db.users
  | .sessions => Column SessionRow.tokenHash db.sessions
  | .projects => Column (fun p => Nocase.key p.slug) db.projects
  | .memberships => Holds (fun m => (m.projectId, m.userId)) db.memberships
  | .ingestKeys => Column IngestKey.keyHash db.ingestKeys
  | .issues => Column (fun i => (i.projectId, i.fingerprint)) db.issues
  | .rawEvents => Holds RawEvent.id db.rawEvents ∧
      Holds (fun r => (r.projectId, r.producerEventId)) db.rawEvents
  | .events => Holds EventRow.id db.events
  | .issueTags => Holds (fun t => (t.issueId, t.tag)) db.issueTags
  | .loginThrottle => Holds LoginThrottle.identityHash db.loginThrottle
  | .apiTokens => Column ApiToken.tokenHash db.apiTokens
  | .userAvatars => Holds UserAvatar.userId db.userAvatars
  | .comments | .endpoints | .outbox | .activity | .auditLog => True

section Writes

variable {db db' : Db}

theorem unique_insertUser {email displayName passwordHash : String} {userId : Int}
    (h : Unique db .users)
    (hinsert : Projects.insertUser db email displayName passwordHash = .ok (db', userId)) :
    Unique db' .users := by
  unfold Projects.insertUser at hinsert
  split at hinsert
  · cases hinsert
  · next hnew =>
    cases hinsert
    have hemails : Column (fun u => Nocase.key u.email) db.users := h
    refine hemails.insert fun id u hu hkey => ?_
    have hmiss := db.users.find?_none (Option.not_isSome_iff_eq_none.mp hnew) hu
    rw [nocaseEq_iff.mpr hkey] at hmiss
    cases hmiss

theorem unique_bootstrap {argon2 : Except String String} {form : Projects.BootstrapForm} {userId : Int}
    (h : Unique db .users) (htx : Projects.bootstrap argon2 form db = .ok (db', userId)) :
    Unique db' .users := by
  obtain ⟨-, -, htx⟩ := Except.bind_ok htx
  obtain ⟨hash, -, htx⟩ := Except.bind_ok htx
  unfold Projects.bootstrapTx at htx
  split at htx
  · cases htx
  · exact unique_insertUser h htx

theorem unique_findOrInsertUser {argon2 : Except String String} {form : Projects.MemberForm}
    {userId : Int} (h : Unique db .users)
    (hfound : Projects.findOrInsertUser db argon2 form = .ok (db', userId)) : Unique db' .users := by
  simp only [Projects.findOrInsertUser] at hfound
  split at hfound
  · cases hfound
    exact h
  · obtain ⟨hash, -, hfound⟩ := Except.bind_ok hfound
    exact unique_insertUser h hfound

theorem unique_writeMember {request : Projects.CheckedMember} {argon2 : Except String String}
    (husers : Unique db .users) (hmembers : Unique db .memberships)
    (htx : Projects.writeMember request argon2 db = .ok (db', ())) :
    Unique db' .users ∧ Unique db' .memberships := by
  obtain ⟨⟨db₁, userId⟩, hfound, htx⟩ := Except.bind_ok htx
  have hfirst := unique_findOrInsertUser husers hfound
  obtain ⟨-, users, -, rfl⟩ := Projects.findOrInsertUser_ok hfound
  dsimp only at htx
  split at htx
  · cases htx
  split at htx
  · cases htx
  cases htx
  refine ⟨hfirst, Holds.upsert hmembers (fun _ _ => rfl) fun m hm => ?_⟩
  obtain ⟨hproject, huser⟩ := Prod.mk.inj hm
  exact decide_eq_true ⟨hproject, huser⟩

theorem holds_insertTag {issueId : Int} {tag : String} {rows : List IssueTag}
    (h : Holds (fun t => (t.issueId, t.tag)) rows) (hnew : ⟨issueId, tag⟩ ∉ rows) :
    Holds (fun t => (t.issueId, t.tag)) (rows ++ [⟨issueId, tag⟩]) := by
  refine h.append fun t ht hkey => hnew ?_
  obtain ⟨rfl, rfl⟩ := Prod.mk.inj hkey
  exact ht

theorem holds_insertTags (issueId : Int) (tags : List String) {rows : List IssueTag}
    (h : Holds (fun t => (t.issueId, t.tag)) rows) :
    Holds (fun t => (t.issueId, t.tag)) (Issues.insertTags issueId tags rows) := by
  induction tags generalizing rows with
  | nil => exact h
  | cons tag rest ih =>
    rw [Issues.insertTags]
    split
    · exact ih h
    · next hnew => exact ih (holds_insertTag h hnew)

theorem holds_mergeLabels (issueId : Int) (labels : List String) (room : Int) {rows : List IssueTag}
    (h : Holds (fun t => (t.issueId, t.tag)) rows) :
    Holds (fun t => (t.issueId, t.tag)) (Ingest.mergeLabels issueId labels room rows) := by
  induction labels generalizing room rows with
  | nil => exact h
  | cons label rest ih =>
    rw [Ingest.mergeLabels]
    split
    · exact h
    · split
      · exact ih room h
      · next hnew => exact ih (room - 1) (holds_insertTag h hnew)

/-- An account keeps its email. -/
theorem unique_rewrite (h : Unique db .users) (p : Int → User → Bool) {f : User → User}
    (hf : ∀ u, (f u).email = u.email) : Column (fun u => Nocase.key u.email) (db.users.update p f) := by
  have hemails : Column (fun u => Nocase.key u.email) db.users := h
  exact hemails.update p fun u => congrArg Nocase.key (hf u)

/-- The indexes that account transactions write to, but for the tokens. -/
structure AccountUnique (db : Db) : Prop where
  users : Unique db .users
  sessions : Unique db .sessions
  loginThrottle : Unique db .loginThrottle
  userAvatars : Unique db .userAvatars

theorem AccountUnique.audited {fault : Option AppError} {row : AuditRow} {write : Tx Unit}
    (htx : audited fault row write db = .ok (db', ()))
    (hwrite : ∀ changed, write db = .ok (changed, ()) → AccountUnique changed) : AccountUnique db' := by
  obtain ⟨-, changed, hchanged, rfl⟩ := audited_ok htx
  obtain ⟨husers, hsessions, hthrottle, havatars⟩ := hwrite changed hchanged
  exact ⟨husers, hsessions, hthrottle, havatars⟩

theorem AccountUnique.exec (h : AccountUnique db) {env : Crates} {fault : Option AppError} {now : Int}
    {request : Settings.Request} (htx : Settings.exec env fault now request db = .ok (db', ())) :
    AccountUnique db' := by
  obtain ⟨husers, hsessions, hthrottle, havatars⟩ := h
  cases request with
  | logout cookie =>
    cases htx
    unfold Settings.destroySession
    split
    · exact ⟨husers, Column.delete hsessions _, hthrottle, havatars⟩
    · exact ⟨husers, hsessions, hthrottle, havatars⟩
  | useApiToken bearer =>
    simp only [Settings.exec, Settings.apiTokenUser] at htx
    split at htx
    · cases htx
    · split at htx
      · cases htx
      · cases htx
        exact ⟨husers, hsessions, hthrottle, havatars⟩
  | createApiToken userId name token =>
    simp only [Settings.exec, Settings.createApiTokenTx] at htx
    refine AccountUnique.audited htx fun changed hchanged => ?_
    split at hchanged
    · cases hchanged
    · cases hchanged
      exact ⟨husers, hsessions, hthrottle, havatars⟩
  | revokeApiToken userId tokenId =>
    simp only [Settings.exec, Settings.revokeApiTokenTx] at htx
    refine AccountUnique.audited htx fun changed hchanged => ?_
    cases hchanged
    exact ⟨husers, hsessions, hthrottle, havatars⟩
  | changePassword userId email newHash current =>
    simp only [Settings.exec, Settings.changePasswordTx] at htx
    refine AccountUnique.audited htx fun changed hchanged => ?_
    cases hchanged
    exact ⟨unique_rewrite husers _ fun _ => rfl, Column.delete hsessions _, hthrottle, havatars⟩
  | updateProfile userId targetId displayName =>
    simp only [Settings.exec, Settings.updateProfileTx] at htx
    refine AccountUnique.audited htx fun changed hchanged => ?_
    cases hchanged
    exact ⟨unique_rewrite husers _ fun _ => rfl, hsessions, hthrottle, havatars⟩
  | uploadAvatar userId targetId png =>
    simp only [Settings.exec, Settings.uploadAvatarTx] at htx
    refine AccountUnique.audited htx fun changed hchanged => ?_
    cases hchanged
    refine ⟨husers, hsessions, hthrottle, Holds.upsert havatars (fun a ha => ?_) fun a ha => ?_⟩
    · exact (of_decide_eq_true ha).symm
    · exact decide_eq_true ha
  | deleteAvatar userId targetId =>
    simp only [Settings.exec, Settings.deleteAvatarTx] at htx
    refine AccountUnique.audited htx fun changed hchanged => ?_
    cases hchanged
    exact ⟨husers, hsessions, hthrottle, Holds.filter havatars _⟩
  | revokeOtherSessions | revokeSession =>
    simp only [Settings.exec, Settings.revokeOtherSessionsTx, Settings.revokeSessionTx] at htx
    refine AccountUnique.audited htx fun changed hchanged => ?_
    cases hchanged
    exact ⟨husers, Column.delete hsessions _, hthrottle, havatars⟩

end Writes

section Runs

variable {cfg : Setup} {db db' : Db}

/-- The indexes of the tables that other modules do not speak of. -/
structure Written (db : Db) : Prop extends AccountUnique db where
  memberships : Unique db .memberships
  issueTags : Unique db .issueTags

theorem unique_of_same {t : TableName} (hsame : SameTable db db' t) (h : Unique db t) : Unique db' t := by
  cases t with
  | comments | endpoints | outbox | activity | auditLog => trivial
  | _ =>
    simp only [SameTable] at hsame
    simp only [Unique, hsame]
    exact h

theorem written_commit {α : Type} {tx : Tx α} (h : Written db)
    (htx : ∀ db' a, tx db = .ok (db', a) → Written db') : Written (silent (commit tx db)).2 :=
  commit_snd Written h htx

/-- Every operation keeps these indexes: one case for each that writes to them. -/
theorem exec_written (now : Int) (op : Op) (h : Written db) : Written (exec cfg now db op).2 := by
  have hkeep : ∀ t, op.writes.contains t = false → Unique db t → Unique (exec cfg now db op).2 t :=
    fun t hwrites => unique_of_same (exec_frame cfg now db op t hwrites)
  have hsame : (∀ t ∈ [TableName.users, .sessions, .loginThrottle, .userAvatars],
      op.writes.contains t = false) → AccountUnique (exec cfg now db op).2 := fun hwrites =>
    ⟨hkeep _ (hwrites _ (by simp)) h.users, hkeep _ (hwrites _ (by simp)) h.sessions,
      hkeep _ (hwrites _ (by simp)) h.loginThrottle, hkeep _ (hwrites _ (by simp)) h.userAvatars⟩
  cases op with
  | worker w =>
    exact ⟨hsame (by simp [Op.writes]), hkeep _ rfl h.memberships, hkeep _ rfl h.issueTags⟩
  | request r =>
    cases r with
    | ingest req body storageId =>
      refine ⟨hsame (by simp [Op.writes, Request.writes]), hkeep _ rfl h.memberships, ?_⟩
      rcases exec_ingest cfg now db req body storageId with
        ⟨e, heq⟩ | ⟨response, -, heq⟩ | ⟨p, -, -, -, -, heq⟩ <;> rw [heq]
      · exact h.issueTags
      · exact h.issueTags
      · exact holds_mergeLabels _ _ _ h.issueTags
    | replaceIssueTags projectId issueId userId tags =>
      refine written_commit h fun db' a htx => ?_
      obtain ⟨-, rfl | ⟨details, rfl⟩⟩ := Issues.replaceIssueTags_ok htx
      · exact h
      · exact { h with issueTags := holds_insertTags issueId tags (Holds.filter h.issueTags _) }
    | bootstrap argon2 form =>
      refine written_commit h fun db' a htx => ?_
      have husers := unique_bootstrap h.users htx
      obtain ⟨-, u, rfl⟩ := Projects.bootstrap_ok htx
      exact { h with users := husers }
    | createProject session form =>
      refine written_commit h fun db' a htx => ?_
      obtain ⟨name, slug, description, -, hmember, rfl⟩ := Projects.createProject_ok htx
      exact { h with
        memberships := Holds.append h.memberships fun m hm hkey => hmember m hm (Prod.mk.inj hkey) }
    | writeMember request argon2 =>
      refine written_commit h fun db' a htx => ?_
      obtain ⟨husers, hmembers⟩ := unique_writeMember h.users h.memberships htx
      obtain ⟨-, -, users, -, rfl⟩ := Projects.writeMember_ok htx
      exact { h with users := husers, memberships := hmembers }
    | loginFailure email =>
      exact { h with
        loginThrottle := Holds.upsert h.loginThrottle
          (fun row _ => Auth.countFailure_identityHash row now) fun row hrow => decide_eq_true hrow }
    | loginSuccess email => exact { h with loginThrottle := Holds.filter h.loginThrottle _ }
    | createSession userId token csrf sessionDays =>
      refine written_commit h fun db' a htx => ?_
      obtain ⟨hnew, rfl⟩ := Auth.createSession_ok htx
      exact { h with sessions := Column.insert h.sessions hnew }
    | account request =>
      have haccount : AccountUnique (exec cfg now db (.request (.account request))).2 :=
        commit_snd AccountUnique h.toAccountUnique fun db' a htx => h.toAccountUnique.exec htx
      exact ⟨haccount, hkeep _ rfl h.memberships, hkeep _ rfl h.issueTags⟩
    | _ =>
      exact ⟨hsame (by simp [Op.writes, Request.writes]), hkeep _ rfl h.memberships, hkeep _ rfl h.issueTags⟩

theorem written_empty : Written .empty where
  users := List.nodup_nil
  sessions := List.nodup_nil
  memberships := List.nodup_nil
  issueTags := List.nodup_nil
  loginThrottle := List.nodup_nil
  userAvatars := List.nodup_nil

/-- After any operations no unique index holds a key twice. -/
theorem unique_after (cfg : Setup) (ops : List (Int × Op)) (t : TableName) :
    Unique (after cfg ops .empty) t := by
  have hwritten : Written (after cfg ops .empty) :=
    after_invariant (fun now db op => exec_written now op) ops written_empty
  have hevents := EventStore.consistent_after cfg ops
  cases t with
  | users => exact hwritten.users
  | sessions => exact hwritten.sessions
  | memberships => exact hwritten.memberships
  | issueTags => exact hwritten.issueTags
  | loginThrottle => exact hwritten.loginThrottle
  | userAvatars => exact hwritten.userAvatars
  | ingestKeys => exact column_iff.mpr (Credentials.keys_unique cfg ops)
  | apiTokens => exact column_iff.mpr (Credentials.tokens_unique cfg ops)
  | projects =>
    have hslugs := (Directory.uniqueKeys_after cfg ops).slugs
    have hcolumn : Column (fun p : Project => Nocase.key p.slug) (after cfg ops .empty).projects :=
      column_iff.mpr fun a b p q hp hq hkey => hslugs a b p q hp hq (nocaseEq_iff.mpr hkey)
    exact hcolumn
  | issues =>
    have hcolumn : Column (fun i : Issue => (i.projectId, i.fingerprint))
        (after cfg ops .empty).issues := column_iff.mpr fun a b i j hi hj hkey =>
      hevents.groups a b i j hi hj (Prod.mk.inj hkey).1 (Prod.mk.inj hkey).2
    exact hcolumn
  | rawEvents =>
    refine ⟨hevents.ids, ?_⟩
    rw [Holds, List.Nodup, List.pairwise_map]
    exact hevents.producers.imp fun hne hkey => hne (Prod.mk.inj hkey)
  | events => exact hevents.events_nodup
  | comments | endpoints | outbox | activity | auditLog => trivial

end Runs

/-- With every request under way, of any kind and in any order, no unique index of
the schema ever holds a key twice. -/
theorem unique_keys_kept {service : UiForms.Service} {publicUrl : Option String} {clock : Int}
    {labels : List Requests.Label} {w : Requests.World}
    (hrun : Runs.run (Requests.step service publicUrl) labels (.start clock) = some w) (t : TableName) :
    Unique w.db t := by
  obtain ⟨ops, hops⟩ := Requests.run_operations hrun
  rw [hops]
  exact unique_after ⟨service.env, publicUrl⟩ ops t

theorem unique_keys_kept_sample : Unique Mediation.Sample.reached.db .sessions :=
  unique_keys_kept Mediation.run_sample .sessions

end Zbierak.UniqueIndexes
