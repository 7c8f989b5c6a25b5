import Zbierak.Server

/-!
# The first user

`bootstrap` writes a lock row, counts the users and inserts one, in a transaction
of its own. That first write takes the write lock of the store, so no other
transaction writes until this one ends, and its reads see all earlier commits.
Every statement is a step; the other transactions of the service run in between,
as long as nobody holds the lock.
-/
namespace Zbierak.Bootstrap

open Projects (BootstrapForm)
open Server (Setup)

/-- A request whose form is checked and whose password is hashed. -/
structure Checked where
  form : BootstrapForm
  passwordHash : String
  deriving DecidableEq, Repr

inductive Stage where
  | locked
  | counted
  | inserted (userId : Int)
  deriving DecidableEq, Repr

/-- The transaction that holds the write lock, with the store as it left it. -/
structure Transaction where
  request : Checked
  db : Db
  touchedAt : Int
  stage : Stage

/-- The store with its lock row, the requests under way, and how the transactions
ended, the latest first. -/
structure World where
  db : Db
  bootstrapLock : Option Int
  clock : Int
  ready : List Checked
  writer : Option Transaction
  signingIn : List Int
  ended : List (Except AppError Int)

inductive Label where
  | tick (seconds : Nat)
  | start (argon2 : Except String String) (form : BootstrapForm)
  | lock (request : Checked)
  | count
  | insert
  | commit
  | fail (error : DbError)
  | failLock (request : Checked) (error : DbError)
  | dropReady (request : Checked)
  | dropWriter
  | createSession (userId : Int) (token csrf : String) (sessionDays : Int)
  | other (op : Server.Op)

/-- The checks of `bootstrap` before its transaction. -/
def check (argon2 : Except String String) (form : BootstrapForm) : Except AppError Checked := do
  Forms.validateIdentity form.email form.displayName
  let passwordHash ← Forms.hashPassword argon2 form.password
  .ok ⟨form, passwordHash⟩

/-- The transaction is rolled back and answers with an error. -/
def World.rollback (w : World) (e : AppError) : World :=
  { w with writer := none, ended := .error e :: w.ended }

def count (w : World) (t : Transaction) : World :=
  if t.db.users.rows.length ≠ 0 then w.rollback .notFound
  else { w with writer := some { t with stage := .counted } }

def insert (w : World) (t : Transaction) : World :=
  let form := t.request.form
  match Projects.insertUser t.db (Text.toAsciiLowercase (Text.trim form.email))
      (Text.trim form.displayName) t.request.passwordHash with
  | .ok (db, userId) => { w with writer := some { t with db, stage := .inserted userId } }
  | .error e => w.rollback e

def commit (w : World) (t : Transaction) (userId : Int) : World :=
  { w with
    db := t.db
    bootstrapLock := some t.touchedAt
    writer := none
    signingIn := userId :: w.signingIn
    ended := .ok userId :: w.ended }

/-- Other operations than the one that this module takes apart. -/
def isOther : Server.Op → Bool
  | .request (.bootstrap _ _) => false
  | _ => true

def step (cfg : Setup) (w : World) : Label → Option World
  | .tick seconds => some { w with clock := w.clock + seconds }
  | .start argon2 form =>
    match check argon2 form with
    | .ok request => some { w with ready := request :: w.ready }
    | .error _ => some w
  | .lock request =>
    if request ∈ w.ready ∧ w.writer.isNone = true then
      some { w with
        ready := w.ready.erase request
        writer := some ⟨request, w.db, w.clock, .locked⟩ }
    else none
  | .count =>
    match w.writer with
    | some t => if t.stage = .locked then some (count w t) else none
    | none => none
  | .insert =>
    match w.writer with
    | some t => if t.stage = .counted then some (insert w t) else none
    | none => none
  | .commit =>
    match w.writer with
    | some t =>
      match t.stage with
      | .inserted userId => some (commit w t userId)
      | .locked | .counted => none
    | none => none
  | .fail error => if w.writer.isSome = true then some (w.rollback (.database error)) else none
  | .failLock request error =>
    if request ∈ w.ready then
      some { w with
        ready := w.ready.erase request
        ended := .error (.database error) :: w.ended }
    else none
  | .dropReady request => some { w with ready := w.ready.erase request }
  | .dropWriter => some { w with writer := none }
  | .createSession userId token csrf sessionDays =>
    if userId ∈ w.signingIn ∧ w.writer.isNone = true then
      some { w with
        db := (Zbierak.commit
          (Auth.createSession cfg.env userId token csrf w.clock sessionDays) w.db).2
        signingIn := w.signingIn.erase userId }
    else none
  | .other op =>
    if isOther op = true ∧ w.writer.isNone = true then
      some { w with db := (Server.exec cfg w.clock w.db op).2 }
    else none

/-- Users stay, and new ones come behind them. -/
def UsersKept (db db' : Db) : Prop :=
  db.users.rows.map Prod.fst <+: db'.users.rows.map Prod.fst

theorem UsersKept.of_keys {db db' : Db}
    (h : db'.users.rows.map Prod.fst = db.users.rows.map Prod.fst) : UsersKept db db' := by
  simp only [UsersKept, h, List.prefix_rfl]

theorem UsersKept.of_same {db db' : Db} (h : db'.users = db.users) : UsersKept db db' :=
  .of_keys (by rw [h])

theorem usersKept_commit {db : Db} {α : Type} {tx : Tx α}
    (h : ∀ db' a, tx db = .ok (db', a) → UsersKept db db') :
    UsersKept db (Server.silent (Zbierak.commit tx db)).2 :=
  commit_snd (UsersKept db) (.of_same rfl) h

theorem usersKept_audited {α : Type} {fault : Option AppError} {row : AuditRow} {write : Tx α}
    {db db' : Db} {a : α} (h : audited fault row write db = .ok (db', a))
    (hwrite : ∀ changed, write db = .ok (changed, a) → UsersKept db changed) : UsersKept db db' := by
  obtain ⟨-, changed, hchanged, rfl⟩ := audited_ok h
  exact hwrite changed hchanged

theorem usersKept_account {env : Crates} {fault : Option AppError} {now : Int}
    {request : Settings.Request} {db db' : Db}
    (h : Settings.exec env fault now request db = .ok (db', ())) : UsersKept db db' := by
  cases request with
  | logout cookie =>
    cases h
    unfold Settings.destroySession
    split <;> exact .of_same rfl
  | useApiToken bearer =>
    simp only [Settings.exec, Settings.apiTokenUser] at h
    split at h
    · cases h
    · split at h
      · cases h
      · cases h
        exact .of_same rfl
  | createApiToken userId name token =>
    simp only [Settings.exec, Settings.createApiTokenTx] at h
    refine usersKept_audited h fun changed hchanged => ?_
    split at hchanged
    · cases hchanged
    · cases hchanged
      exact .of_same rfl
  | changePassword | updateProfile =>
    simp only [Settings.exec, Settings.changePasswordTx, Settings.updateProfileTx] at h
    refine usersKept_audited h fun changed hchanged => ?_
    cases hchanged
    exact .of_keys (Table.keys_update _ _ _)
  | revokeApiToken | uploadAvatar | deleteAvatar | revokeOtherSessions | revokeSession =>
    simp only [Settings.exec, Settings.revokeApiTokenTx, Settings.uploadAvatarTx,
      Settings.deleteAvatarTx, Settings.revokeOtherSessionsTx, Settings.revokeSessionTx] at h
    refine usersKept_audited h fun changed hchanged => ?_
    cases hchanged
    exact .of_same rfl

theorem usersKept_exec (cfg : Setup) (now : Int) (db : Db) (op : Server.Op) :
    UsersKept db (Server.exec cfg now db op).2 := by
  have hframe := Server.exec_frame cfg now db op
  cases op with
  | request r =>
    cases r with
    | bootstrap argon2 form =>
      refine usersKept_commit fun db' a htx => ?_
      obtain ⟨-, u, rfl⟩ := Projects.bootstrap_ok htx
      exact Table.Extended.keys (.inr ⟨u, rfl⟩)
    | writeMember request argon2 =>
      refine usersKept_commit fun db' a htx => ?_
      obtain ⟨-, -, users, hkept, rfl⟩ := Projects.writeMember_ok htx
      exact hkept.keys
    | account request => exact usersKept_commit fun db' a htx => usersKept_account htx
    | _ => exact .of_same (hframe .users rfl)
  | worker w => exact .of_same (hframe .users rfl)

/-- What the open transaction did so far, in terms of the committed store. -/
def Working (db : Db) (t : Transaction) : Prop :=
  match t.stage with
  | .locked => t.db = db
  | .counted => t.db = db ∧ db.users.rows = []
  | .inserted userId =>
    Projects.bootstrapTx t.request.form t.request.passwordHash db = .ok (t.db, userId)

/-- One transaction at most commits a user, who then owns the installation; the
others find the user or fail in the store. -/
structure SingleBootstrap (w : World) : Prop where
  refused : ∀ e, .error e ∈ w.ended → e = .notFound ∨ ∃ d, e = .database d
  once : (w.ended.filter Except.isOk).length ≤ 1
  owner : ∀ id, .ok id ∈ w.ended →
    ∀ userId, Settings.isInstanceOwner w.db userId = true ↔ userId = id

/-- A transaction that ends in this step commits the first user or leaves the
store as it is. -/
structure EndsWell (w w' : World) : Prop where
  commits : ∀ id, w'.ended = .ok id :: w.ended →
    w.db.users.rows = [] ∧ ∃ u, w'.db = { w.db with users := w.db.users.insert u } ∧
      id = w.db.users.nextId
  refuses : ∀ e, w'.ended = .error e :: w.ended → w'.db = w.db

/-- What holds between any two steps. -/
structure Inv (w : World) : Prop where
  working : ∀ t, w.writer = some t → Working w.db t
  refused : ∀ e, .error e ∈ w.ended → e = .notFound ∨ ∃ d, e = .database d
  once : (w.ended.filter Except.isOk).length ≤ 1
  owner : ∀ id, .ok id ∈ w.ended → (w.db.users.rows.map Prod.fst).head? = some id

theorem isInstanceOwner_iff {db : Db} {userId : Int} :
    Settings.isInstanceOwner db userId = true ↔
      (db.users.rows.map Prod.fst).head? = some userId := by
  rw [Settings.isInstanceOwner, decide_eq_true_eq, Table.min?_keys]

theorem UsersKept.head {db db' : Db} (h : UsersKept db db') {id : Int}
    (hid : (db.users.rows.map Prod.fst).head? = some id) :
    (db'.users.rows.map Prod.fst).head? = some id := by
  obtain ⟨rest, hrest⟩ := h
  rw [← hrest, List.head?_append, hid, Option.some_or]

/-- A transaction that finds the user table empty is the only one so far. -/
theorem Inv.none_committed {w : World} (h : Inv w) (hempty : w.db.users.rows = []) :
    w.ended.filter Except.isOk = [] := by
  rw [List.filter_eq_nil_iff]
  rintro (e | id) hmem
  · simp [Except.isOk, Except.toBool]
  · have howner := h.owner id hmem
    simp [hempty] at howner

/-- The lock is free or the transaction that holds it read the committed store. -/
theorem Inv.write {w : World} (h : Inv w) (hfree : w.writer.isNone = true) {db : Db}
    (hkept : UsersKept w.db db) {clock : Int} {signingIn : List Int} :
    Inv { w with db, clock, signingIn } where
  working t ht := by
    change w.writer = some t at ht
    simp [ht] at hfree
  refused := h.refused
  once := h.once
  owner id hid := hkept.head (h.owner id hid)

/-- A transaction that fails before its first write was not open yet. -/
theorem Inv.refuse {w : World} (h : Inv w) {e : AppError}
    (he : e = .notFound ∨ ∃ d, e = .database d) (ready : List Checked) :
    Inv { w with ready, ended := .error e :: w.ended } where
  working := h.working
  refused e' he' := by
    rcases List.mem_cons.mp he' with heq | hmem
    · cases heq
      exact he
    · exact h.refused e' hmem
  once := by simpa [Except.isOk, Except.toBool] using h.once
  owner id hid := h.owner id (by simpa using hid)

theorem Inv.rollback {w : World} (h : Inv w) {e : AppError}
    (he : e = .notFound ∨ ∃ d, e = .database d) : Inv (w.rollback e) where
  working t ht := by cases ht
  refused := (h.refuse he w.ready).refused
  once := (h.refuse he w.ready).once
  owner := (h.refuse he w.ready).owner

theorem insertUser_error {db : Db} {email displayName passwordHash : String} {e : AppError}
    (h : Projects.insertUser db email displayName passwordHash = .error e) :
    ∃ d, e = .database d := by
  unfold Projects.insertUser at h
  split at h <;> cases h
  exact ⟨_, rfl⟩

theorem bootstrapTx_ok {db db' : Db} {form : BootstrapForm} {passwordHash : String} {userId : Int}
    (h : Projects.bootstrapTx form passwordHash db = .ok (db', userId)) :
    db.users.rows = [] ∧ userId = db.users.nextId ∧
      ∃ u, db' = { db with users := db.users.insert u } := by
  unfold Projects.bootstrapTx at h
  split at h
  · cases h
  · next hrows =>
    obtain ⟨hid, hdb⟩ := Projects.insertUser_ok h
    exact ⟨not_not.mp hrows, hid, _, hdb⟩

theorem inv_count {w : World} {t : Transaction} (h : Inv w) (ht : w.writer = some t)
    (hstage : t.stage = .locked) : Inv (count w t) := by
  have hworking := h.working t ht
  simp only [Working, hstage] at hworking
  unfold count
  split
  · exact h.rollback (.inl rfl)
  · next hcount =>
    refine ⟨fun t' ht' => ?_, h.refused, h.once, h.owner⟩
    cases ht'
    rw [hworking, not_not, List.length_eq_zero_iff] at hcount
    exact ⟨hworking, hcount⟩

theorem inv_insert {w : World} {t : Transaction} (h : Inv w) (ht : w.writer = some t)
    (hstage : t.stage = .counted) : Inv (insert w t) := by
  have hworking := h.working t ht
  simp only [Working, hstage] at hworking
  obtain ⟨hdb, hempty⟩ := hworking
  unfold insert
  dsimp only
  split
  · next db userId hinsert =>
    refine ⟨fun t' ht' => ?_, h.refused, h.once, h.owner⟩
    cases ht'
    rw [hdb] at hinsert
    simpa [Working, Projects.bootstrapTx, hempty] using hinsert
  · next e herror => exact h.rollback (.inr (insertUser_error herror))

theorem inv_commit {w : World} {t : Transaction} {userId : Int} (h : Inv w)
    (ht : w.writer = some t) (hstage : t.stage = .inserted userId) : Inv (commit w t userId) := by
  have hworking := h.working t ht
  simp only [Working, hstage] at hworking
  obtain ⟨hempty, rfl, u, hdb⟩ := bootstrapTx_ok hworking
  refine ⟨fun t ht => ?_, fun e he => h.refused e (by simpa [commit] using he), ?_, fun id hid => ?_⟩
  · cases ht
  · rw [commit, List.filter_cons_of_pos rfl, h.none_committed hempty]
    exact Nat.le_refl 1
  · rcases List.mem_cons.mp hid with heq | hmem
    · cases heq
      simp [commit, hdb, hempty]
    · have hnone := List.filter_eq_nil_iff.mp (h.none_committed hempty) _ hmem
      simp [Except.isOk, Except.toBool] at hnone

theorem inv_step {cfg : Setup} {w w' : World} {label : Label} (h : Inv w)
    (hstep : step cfg w label = some w') : Inv w' := by
  cases label with
  | tick seconds =>
    cases hstep
    exact ⟨h.working, h.refused, h.once, h.owner⟩
  | start argon2 form =>
    simp only [step] at hstep
    split at hstep <;> cases hstep
    · exact ⟨h.working, h.refused, h.once, h.owner⟩
    · exact h
  | lock request =>
    simp only [step] at hstep
    split at hstep <;> cases hstep
    refine ⟨fun t ht => ?_, h.refused, h.once, h.owner⟩
    cases ht
    rfl
  | count =>
    simp only [step] at hstep
    split at hstep
    · next t ht =>
      split at hstep <;> cases hstep
      exact inv_count h ht ‹_›
    · cases hstep
  | insert =>
    simp only [step] at hstep
    split at hstep
    · next t ht =>
      split at hstep <;> cases hstep
      exact inv_insert h ht ‹_›
    · cases hstep
  | commit =>
    simp only [step] at hstep
    split at hstep
    · next t ht =>
      split at hstep <;> cases hstep
      exact inv_commit h ht ‹_›
    · cases hstep
  | fail error =>
    simp only [step] at hstep
    split at hstep <;> cases hstep
    exact h.rollback (.inr ⟨error, rfl⟩)
  | failLock request error =>
    simp only [step] at hstep
    split at hstep <;> cases hstep
    exact h.refuse (.inr ⟨error, rfl⟩) _
  | dropReady request =>
    cases hstep
    exact ⟨h.working, h.refused, h.once, h.owner⟩
  | dropWriter =>
    cases hstep
    refine ⟨fun t ht => ?_, h.refused, h.once, h.owner⟩
    cases ht
  | createSession userId token csrf sessionDays =>
    simp only [step] at hstep
    split at hstep <;> cases hstep
    next hfree =>
    have hkept : UsersKept w.db (Zbierak.commit
        (Auth.createSession cfg.env userId token csrf w.clock sessionDays) w.db).2 := by
      refine commit_snd (UsersKept w.db) (.of_same rfl) fun db' u htx => ?_
      obtain ⟨-, rfl⟩ := Auth.createSession_ok htx
      exact .of_same rfl
    exact h.write hfree.2 hkept
  | other op =>
    simp only [step] at hstep
    split at hstep <;> cases hstep
    next hfree => exact h.write hfree.2 (usersKept_exec cfg w.clock w.db op)

theorem EndsWell.of_same {w w' : World} (h : w'.ended = w.ended) : EndsWell w w' where
  commits id hid := by simp [h] at hid
  refuses e he := by simp [h] at he

theorem EndsWell.of_error {w w' : World} {e : AppError} (h : w'.ended = .error e :: w.ended)
    (hdb : w'.db = w.db) : EndsWell w w' where
  commits id hid := by simp [h] at hid
  refuses _ _ := hdb

theorem endsWell_commit {w : World} {t : Transaction} {userId : Int} (h : Inv w)
    (ht : w.writer = some t) (hstage : t.stage = .inserted userId) :
    EndsWell w (commit w t userId) where
  commits id hid := by
    have hworking := h.working t ht
    simp only [Working, hstage] at hworking
    obtain ⟨hempty, hnext, u, hdb⟩ := bootstrapTx_ok hworking
    obtain rfl : userId = id := by simpa [commit] using hid
    exact ⟨hempty, u, hdb, hnext⟩
  refuses e he := by simp [commit] at he

theorem endsWell_step {cfg : Setup} {w w' : World} {label : Label} (h : Inv w)
    (hstep : step cfg w label = some w') : EndsWell w w' := by
  cases label with
  | tick | dropReady | dropWriter =>
    cases hstep
    exact .of_same rfl
  | start argon2 form =>
    simp only [step] at hstep
    split at hstep <;> cases hstep <;> exact .of_same rfl
  | lock | createSession | other =>
    simp only [step] at hstep
    split at hstep <;> cases hstep
    exact .of_same rfl
  | count =>
    simp only [step] at hstep
    split at hstep
    · split at hstep <;> cases hstep
      unfold count
      split
      · exact .of_error rfl rfl
      · exact .of_same rfl
    · cases hstep
  | insert =>
    simp only [step] at hstep
    split at hstep
    · split at hstep <;> cases hstep
      unfold insert
      dsimp only
      split
      · exact .of_same rfl
      · exact .of_error rfl rfl
    · cases hstep
  | commit =>
    simp only [step] at hstep
    split at hstep
    · next t ht =>
      split at hstep <;> cases hstep
      exact endsWell_commit h ht ‹_›
    · cases hstep
  | fail | failLock =>
    simp only [step] at hstep
    split at hstep <;> cases hstep
    exact .of_error rfl rfl

/-- No request is under way. -/
def Idle (w : World) : Prop := w.ready = [] ∧ w.writer = none ∧ w.signingIn = [] ∧ w.ended = []

/-- However the statements of bootstrap requests and the other transactions
interleave, one bootstrap at most commits a user and every transaction of a
bootstrap ends well; that is so from any store, whether it has users or not. -/
theorem single_bootstrap (cfg : Setup) {start w : World} (hidle : Idle start) {labels : List Label}
    (hrun : Runs.run (step cfg) labels start = some w) :
    SingleBootstrap w ∧ ∀ label w', step cfg w label = some w' → EndsWell w w' := by
  obtain ⟨-, hwriter, -, hended⟩ := hidle
  have hstart : Inv start := by
    refine ⟨?_, ?_, ?_, ?_⟩ <;> simp [hwriter, hended]
  have hinv : Inv w := Runs.run_invariant (fun s a t hs ht => inv_step hs ht) hrun hstart
  refine ⟨⟨hinv.refused, hinv.once, fun id hid userId => ?_⟩, fun label w' => endsWell_step hinv⟩
  rw [isInstanceOwner_iff, hinv.owner id hid, Option.some.injEq, eq_comm]

def Sample.fresh : World where
  db := Db.empty
  bootstrapLock := none
  clock := 0
  ready := []
  writer := none
  signingIn := []
  ended := []

def Sample.form (email : String) : BootstrapForm := ⟨email, "Ada", "correct horse battery"⟩

def Sample.checked (email : String) : Checked := ⟨Sample.form email, "$argon2id$"⟩

/-- Two visitors send the form at once; the second is refused, and a member that
the first one adds does not own the installation. -/
def Sample.race : List Label := [
  .start (.ok "$argon2id$") (Sample.form "ada@example.org"),
  .start (.ok "$argon2id$") (Sample.form "eve@example.org"),
  .lock (Sample.checked "ada@example.org"), .count, .insert, .commit,
  .lock (Sample.checked "eve@example.org"), .count,
  .createSession 1 "token" "csrf" 30,
  .other (.request (.createProject ⟨1, "csrf"⟩ ⟨"csrf", "Demo", some "demo", none⟩)),
  .other (.request (.writeMember ⟨1, .owner, 1, .admin,
    ⟨"csrf", "eve@example.org", "Eve", "correct horse battery", "admin"⟩⟩ (.ok "$argon2id$")))]

set_option maxRecDepth 20000 in
theorem single_bootstrap_race :
    ∃ w, Runs.run (step ⟨Sample.crates, none⟩) Sample.race Sample.fresh = some w ∧
      w.db.users.rows.length = 2 ∧ w.ended = [.error .notFound, .ok 1] ∧ SingleBootstrap w := by
  have hrun : ∃ w ∈ Runs.run (step ⟨Sample.crates, none⟩) Sample.race Sample.fresh,
      w.db.users.rows.length = 2 ∧ w.ended = [.error .notFound, .ok 1] := by decide +kernel
  obtain ⟨w, hw, husers, hended⟩ := hrun
  exact ⟨w, hw, husers, hended,
    (single_bootstrap ⟨Sample.crates, none⟩ ⟨rfl, rfl, rfl, rfl⟩ hw).1⟩

end Zbierak.Bootstrap
