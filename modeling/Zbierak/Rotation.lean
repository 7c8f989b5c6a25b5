import Zbierak.Lib.Runs
import Zbierak.Login
import Zbierak.UiForms

/-!
# Password rotation

`login` reads the stored hash, verifies the password and creates the session in
separate statements; `change_password` verifies the current password and then
replaces the hash and deletes the other sessions in one transaction. Any number
of both run at once.
-/
namespace Zbierak.Rotation

open Login (LoginForm Stage)
open Settings (PasswordForm)

/-- A login under way; `hash` is what its password was verified against. -/
structure Attempt where
  form : LoginForm
  stage : Stage
  hash : Option String
  deriving DecidableEq, Repr

/-- A password change under way; `newHash` is there once the current password is
verified. -/
structure Change where
  session : Auth.Session
  email : String
  current : String
  form : PasswordForm
  newHash : Option String
  deriving DecidableEq, Repr

/-- The login that created a session. -/
structure Origin where
  sessionId : Int
  password : String
  hash : String
  deriving DecidableEq, Repr

/-- A committed password change; `current` is the digest of the session that
performed it. -/
structure PasswordRotation where
  userId : Int
  newHash : String
  current : String
  deriving DecidableEq, Repr

/-- The store, the requests under way, and what became of the finished ones, the
latest rotation first. -/
structure World where
  db : Db
  clock : Int
  logins : List Attempt
  changes : List Change
  origins : List Origin
  rotations : List PasswordRotation

inductive Label where
  | tick (seconds : Nat)
  | startLogin (cookieToken : String) (form : LoginForm)
  | advance (attempt : Attempt) (token csrf : String)
  | startChange (cookie : Option String) (userId : Int) (form : PasswordForm)
  | verifyCurrent (change : Change) (argon2 : Except String String)
  | commitChange (change : Change) (fault : Option AppError)
  | dropLogin (attempt : Attempt)
  | dropChange (change : Change)

section Steps

variable (env : Crates) (sessionDays : Int) (w : World)

/-- The next step of a login that is under way. -/
def advance (a : Attempt) (token csrf : String) : World :=
  let others := w.logins.erase a
  match a.stage with
  | .checked => { w with logins := ⟨a.form, Login.findUser w.db a.form.email, none⟩ :: others }
  | .found userId hash =>
    { w with logins := ⟨a.form, Login.verify env a.form userId hash, some hash⟩ :: others }
  | .unknown => { w with logins := others, db := Login.recordUnknown env a.form w.clock w.db }
  | .rejected userId =>
    { w with logins := others, db := Login.recordRejected env a.form userId w.clock w.db }
  | .accepted userId =>
    match Login.recordAccepted env sessionDays a.form userId w.clock token csrf w.db with
    | (.ok (), db) =>
      { w with
        logins := others
        db
        origins := w.origins ++
          a.hash.toList.map fun hash => ⟨w.db.sessions.nextId, a.form.password, hash⟩ }
    | (.error _, db) => { w with logins := others, db }

/-- A change whose session and form are accepted. -/
def startChange (cookie : Option String) (userId : Int) (form : PasswordForm) :
    Except AppError Change := do
  let session ← Settings.requireSession env w.db cookie w.clock
  UiForms.checkChange session userId form
  .ok ⟨session, UiForms.sessionEmail w.db session, Settings.currentHash env cookie, form, none⟩

def commitChange (c : Change) (newHash : String) (fault : Option AppError) : World :=
  let tx := Settings.changePasswordTx fault c.session.userId c.email newHash c.current
  match commit tx w.db with
  | (.ok (), db) =>
    { w with
      db
      changes := w.changes.erase c
      rotations := ⟨c.session.userId, newHash, c.current⟩ :: w.rotations }
  | (.error _, db) => { w with db, changes := w.changes.erase c }

def step : Label → Option World
  | .tick seconds => some { w with clock := w.clock + seconds }
  | .startLogin cookieToken form =>
    match Login.start env w.db w.clock cookieToken form with
    | .ok attempt => some { w with logins := ⟨attempt.form, attempt.stage, none⟩ :: w.logins }
    | .error _ => some w
  | .advance a token csrf => if a ∈ w.logins then some (advance env sessionDays w a token csrf) else none
  | .startChange cookie userId form =>
    match startChange env w cookie userId form with
    | .ok c => some { w with changes := c :: w.changes }
    | .error _ => some w
  | .verifyCurrent c argon2 =>
    if c ∈ w.changes ∧ c.newHash = none then
      match UiForms.verifyCurrent env w.db c.session argon2 c.form with
      | .ok newHash =>
        some { w with changes := { c with newHash := some newHash } :: w.changes.erase c }
      | .error _ => some { w with changes := w.changes.erase c }
    else none
  | .commitChange c fault =>
    if c ∈ w.changes then c.newHash.map fun newHash => commitChange w c newHash fault else none
  | .dropLogin a => some { w with logins := w.logins.erase a }
  | .dropChange c => some { w with changes := w.changes.erase c }

/-- The latest rotation of a user's password. -/
def World.last (userId : Int) : Option PasswordRotation := w.rotations.find? fun r => r.userId = userId

/-- Every session of the user but the one that performed the rotation was created
by a login that verified the new password. -/
def Evicted (r : PasswordRotation) : Prop :=
  ∀ row ∈ w.db.sessions.rows, row.2.userId = r.userId → row.2.tokenHash ≠ r.current →
    ∃ o ∈ w.origins, o.sessionId = row.1 ∧ o.hash = r.newHash ∧
      env.verifyPassword o.password r.newHash = true

/-- A login that creates a session for the user finds the hash it verified its
password against still stored. -/
def Fresh (userId : Int) : Label → Prop
  | .advance a _ _ =>
    a.stage = .accepted userId → (w.db.users.get? userId).map User.passwordHash = a.hash
  | _ => True

/-- What holds between any two steps. -/
structure Inv (userId : Int) : Prop where
  verified : ∀ a ∈ w.logins, ∀ id, a.stage = .accepted id →
    ∃ hash, a.hash = some hash ∧ env.verifyPassword a.form.password hash = true
  stored : ∀ r u, w.last userId = some r → w.db.users.get? userId = some u →
    u.passwordHash = r.newHash
  evicted : ∀ r, w.last userId = some r → Evicted env w r

end Steps

instance (env : Crates) (w : World) (r : PasswordRotation) : Decidable (Evicted env w r) := by
  unfold Evicted
  infer_instance

instance (w : World) (userId : Int) : ∀ label, Decidable (Fresh w userId label)
  | .advance _ _ _ => by unfold Fresh; infer_instance
  | .tick _ | .startLogin _ _ | .startChange _ _ _ | .verifyCurrent _ _ | .commitChange _ _
  | .dropLogin _ | .dropChange _ => isTrue trivial

section Proofs

variable {env : Crates} {sessionDays userId : Int} {w w' : World}

/-- Rows may go and origins may come. -/
theorem Evicted.mono {r : PasswordRotation} (h : Evicted env w r)
    (hrows : ∀ row ∈ w'.db.sessions.rows, row ∈ w.db.sessions.rows)
    (horigins : ∀ o ∈ w.origins, o ∈ w'.origins) : Evicted env w' r := by
  intro row hrow huser hother
  obtain ⟨o, ho, horigin⟩ := h row (hrows row hrow) huser hother
  exact ⟨o, horigins o ho, horigin⟩

/-- Steps that touch neither users nor sessions. -/
theorem Inv.of_same (h : Inv env w userId) (husers : w'.db.users = w.db.users)
    (hsessions : w'.db.sessions = w.db.sessions) (horigins : w'.origins = w.origins)
    (hrotations : w'.rotations = w.rotations)
    (hlogins : ∀ a ∈ w'.logins, ∀ id, a.stage = .accepted id → a ∈ w.logins ∨
      ∃ hash, a.hash = some hash ∧ env.verifyPassword a.form.password hash = true) :
    Inv env w' userId where
  verified a ha id hstage := by
    rcases hlogins a ha id hstage with hold | hnew
    · exact h.verified a hold id hstage
    · exact hnew
  stored r u hlast hu := by
    rw [World.last, hrotations] at hlast
    exact h.stored r u hlast (husers ▸ hu)
  evicted r hlast := by
    rw [World.last, hrotations] at hlast
    exact (h.evicted r hlast).mono (by simp [hsessions]) (by simp [horigins])

theorem verify_accepted {form : LoginForm} {found id : Int} {hash : String}
    (h : Login.verify env form found hash = .accepted id) :
    env.verifyPassword form.password hash = true := by
  unfold Login.verify at h
  split at h
  · next hverified => exact hverified
  · cases h

theorem findUser_not_accepted (db : Db) (email : String) (id : Int) :
    Login.findUser db email ≠ .accepted id := by
  rcases Login.findUser_cases db email with ⟨found, u, -, -, hfound⟩ | hunknown
  · simp [hfound]
  · simp [hunknown]

/-- The rotation that is found is the user's. -/
theorem World.last_userId {r : PasswordRotation} (h : w.last userId = some r) : r.userId = userId := by
  simpa using List.find?_some h

/-- The new session has the login as its origin. -/
theorem Inv.create (h : Inv env w userId) {a : Attempt} {hash : String} {db : Db} {s : SessionRow}
    (hverified : env.verifyPassword a.form.password hash = true)
    (hstored : s.userId = userId →
      (w.db.users.get? userId).map User.passwordHash = some hash)
    (husers : db.users = w.db.users) (hsessions : db.sessions = w.db.sessions.insert s) :
    Inv env { w with
      logins := w.logins.erase a
      db
      origins := w.origins ++ [⟨w.db.sessions.nextId, a.form.password, hash⟩] } userId where
  verified b hb := h.verified b (List.mem_of_mem_erase hb)
  stored r u hlast hu := h.stored r u hlast (husers ▸ hu)
  evicted r hlast := by
    intro row hrow huser hother
    simp only [hsessions, Table.rows_insert, List.mem_append, List.mem_singleton] at hrow
    rcases hrow with hold | rfl
    · obtain ⟨o, ho, horigin⟩ := h.evicted r hlast row hold huser hother
      exact ⟨o, List.mem_append_left _ ho, horigin⟩
    · obtain ⟨u, hu, rfl⟩ := Option.map_eq_some_iff.mp (hstored (huser.trans (World.last_userId hlast)))
      have hnew : u.passwordHash = r.newHash := h.stored r u hlast hu
      refine ⟨_, List.mem_append_right _ List.mem_cons_self, rfl, hnew, ?_⟩
      rw [← hnew]
      exact hverified

theorem inv_advance (h : Inv env w userId) {a : Attempt} {token csrf : String} (ha : a ∈ w.logins)
    (hfresh : Fresh w userId (.advance a token csrf)) :
    Inv env (advance env sessionDays w a token csrf) userId := by
  have hothers : ∀ b ∈ w.logins.erase a, b ∈ w.logins := fun b hb => List.mem_of_mem_erase hb
  unfold advance
  split
  · refine h.of_same rfl rfl rfl rfl fun b hb id hstage => ?_
    rcases List.mem_cons.mp hb with rfl | hb
    · exact absurd hstage (findUser_not_accepted w.db _ id)
    · exact .inl (hothers b hb)
  · next hash hstage =>
    refine h.of_same rfl rfl rfl rfl fun b hb _ haccepted => ?_
    rcases List.mem_cons.mp hb with rfl | hb
    · exact .inr ⟨hash, rfl, verify_accepted haccepted⟩
    · exact .inl (hothers b hb)
  · exact h.of_same rfl rfl rfl rfl fun b hb _ _ => .inl (hothers b hb)
  · exact h.of_same rfl rfl rfl rfl fun b hb _ _ => .inl (hothers b hb)
  · next id hstage =>
    obtain ⟨hash, hhash, hverified⟩ := h.verified a ha id hstage
    have hstored : id = userId → (w.db.users.get? userId).map User.passwordHash = some hash := by
      rintro rfl
      exact (hfresh hstage).trans hhash
    rcases Login.recordAccepted_cases env sessionDays a.form id w.clock token csrf w.db with
      ⟨db, s, huser, husers, hsessions, -, hrecorded⟩ | ⟨e, hrecorded⟩
    · rw [hrecorded, hhash]
      exact h.create hverified (fun hs => hstored (huser.symm.trans hs)) husers hsessions
    · rw [hrecorded]
      exact h.of_same rfl rfl rfl rfl fun b hb _ _ => .inl (hothers b hb)

/-- The latest rotation of a user is the new one, or is for another user. -/
theorem last_cons {new r : PasswordRotation} {rotations : List PasswordRotation}
    (h : (new :: rotations).find? (fun x => x.userId = userId) = some r) :
    (new.userId = userId ∧ r = new) ∨
      userId ≠ new.userId ∧ rotations.find? (fun x => x.userId = userId) = some r := by
  by_cases huser : new.userId = userId
  · simp only [List.find?_cons, huser, decide_true, Option.some.injEq] at h
    exact .inl ⟨huser, h.symm⟩
  · simp only [List.find?_cons, huser, decide_false] at h
    exact .inr ⟨fun heq => huser heq.symm, h⟩

/-- The new hash is stored and the other sessions of the user are gone. -/
theorem inv_commitChange (h : Inv env w userId) (c : Change) (newHash : String)
    (fault : Option AppError) : Inv env (commitChange w c newHash fault) userId := by
  unfold commitChange
  dsimp only
  rcases commit_cases (Settings.changePasswordTx fault c.session.userId c.email newHash c.current)
    w.db with ⟨db, u, htx, hcommit⟩ | ⟨e, -, hcommit⟩
  · rw [hcommit]
    obtain ⟨-, changed, hchanged, rfl⟩ := audited_ok htx
    cases hchanged
    have hrows : ∀ row ∈ (w.db.sessions.delete fun _ s =>
        s.userId = c.session.userId ∧ s.tokenHash ≠ c.current).rows, row ∈ w.db.sessions.rows :=
      fun row hrow => (List.mem_filter.mp hrow).1
    refine ⟨h.verified, fun r u hlast hu => ?_, fun r hlast => ?_⟩
    · rcases last_cons hlast with ⟨rfl, rfl⟩ | ⟨hne, hlast⟩
      · simp only [Table.get?_update, Option.map_eq_some_iff] at hu
        obtain ⟨old, -, rfl⟩ := hu
        simp
      · simp only [Table.get?_update, hne, decide_false, Bool.false_eq_true, if_false,
          Option.map_id'] at hu
        exact h.stored r u hlast hu
    · rcases last_cons hlast with ⟨-, rfl⟩ | ⟨-, hlast⟩
      · intro row hrow huser hother
        have hkept := (List.mem_filter.mp hrow).2
        simp [huser, hother] at hkept
      · exact (h.evicted r hlast).mono hrows fun o ho => ho
  · rw [hcommit]
    exact h.of_same rfl rfl rfl rfl fun a ha _ _ => .inl ha

theorem inv_step {label : Label} (h : Inv env w userId) (hfresh : Fresh w userId label)
    (hstep : step env sessionDays w label = some w') : Inv env w' userId := by
  have hsame : ∀ {clock : Int} {changes : List Change}, Inv env { w with clock, changes } userId :=
    h.of_same rfl rfl rfl rfl fun a ha _ _ => .inl ha
  cases label with
  | tick seconds =>
    cases hstep
    exact hsame
  | startLogin cookieToken form =>
    simp only [step] at hstep
    split at hstep
    · next attempt hstart =>
      cases hstep
      obtain ⟨rfl, -⟩ := Login.start_ok hstart
      refine h.of_same rfl rfl rfl rfl fun a ha id hstage => ?_
      rcases List.mem_cons.mp ha with rfl | ha
      · cases hstage
      · exact .inl ha
    · cases hstep
      exact h
  | advance a token csrf =>
    simp only [step] at hstep
    split at hstep
    · next ha =>
      cases hstep
      exact inv_advance h ha hfresh
    · cases hstep
  | startChange cookie userId form =>
    simp only [step] at hstep
    split at hstep <;> cases hstep
    · exact hsame
    · exact h
  | verifyCurrent c argon2 =>
    simp only [step] at hstep
    split at hstep
    · split at hstep <;> cases hstep <;> exact hsame
    · cases hstep
  | commitChange c fault =>
    simp only [step] at hstep
    split at hstep
    · obtain ⟨newHash, -, rfl⟩ := Option.map_eq_some_iff.mp hstep
      exact inv_commitChange h c newHash fault
    · cases hstep
  | dropLogin a =>
    cases hstep
    exact h.of_same rfl rfl rfl rfl fun b hb _ _ => .inl (List.mem_of_mem_erase hb)
  | dropChange c =>
    cases hstep
    exact hsame

/-- From its commit on, a rotation leaves the user only sessions of logins that
verified the new password, provided that no login creates a session for the user
after the hash it verified was replaced. -/
theorem rotation_evicts {start : World} (hlogins : start.logins = [])
    (hrotations : start.rotations = []) {labels : List Label}
    (hfresh : Runs.Along (step env sessionDays) (fun w => Fresh w userId) labels start)
    (hrun : Runs.run (step env sessionDays) labels start = some w) {r : PasswordRotation}
    (hlast : w.last userId = some r) : Evicted env w r := by
  have hstart : Inv env start userId := by
    refine ⟨?_, ?_, ?_⟩ <;> simp [hlogins, hrotations, World.last]
  exact (Runs.along_invariant (fun s a t hs hc ht => inv_step hs hc ht) hrun hfresh hstart).evicted
    r hlast

end Proofs

/-- A hash names its password. -/
def Sample.accounts : Crates := { Sample.crates with
  sha256Hex := fun bytes =>
    if bytes = Text.toUtf8 "cookie" then
      "d7e83e28a04b537e64424546b14caf9b67bad2f28dabce68116e0d372319fa00"
    else "3c469e9d6c5875d37a43f353d4f88e61fcf812c66eee3457465a40b0da4153e0"
  verifyPassword := fun password hash => hash = "$argon2id$" ++ password }

/-- Ada is signed in, and nobody else. -/
def Sample.ada : World where
  db := { Db.empty with
    users := Table.empty.insert ⟨"ada@example.org", "Ada", "$argon2id$old-password"⟩
    sessions := Table.empty.insert ⟨Auth.tokenHash Sample.accounts "cookie", 1, "csrf", 1000⟩ }
  clock := 0
  logins := []
  changes := []
  origins := []
  rotations := []

def Sample.login (password : String) : LoginForm := ⟨"challenge", "ada@example.org", password⟩

def Sample.change : Change :=
  ⟨⟨1, "csrf"⟩, "ada@example.org", Auth.tokenHash Sample.accounts "cookie",
    ⟨"csrf", "old-password", "new-password"⟩, none⟩

/-- Ada replaces her password. -/
def Sample.rotate : List Label := [
  .startChange (some "cookie") 1 ⟨"csrf", "old-password", "new-password"⟩,
  .verifyCurrent Sample.change (.ok "$argon2id$new-password"),
  .commitChange { Sample.change with newHash := some "$argon2id$new-password" } none]

/-- A login up to its verified password. -/
def Sample.verified (password : String) : List Label := [
  .startLogin "challenge" (Sample.login password),
  .advance ⟨Sample.login password, .checked, none⟩ "" "",
  .advance ⟨Sample.login password, .found 1 ("$argon2id$" ++ password), none⟩ "" ""]

def Sample.create (password : String) : Label :=
  .advance ⟨Sample.login password, .accepted 1, some ("$argon2id$" ++ password)⟩ "token" "csrf"

set_option maxRecDepth 20000 in
theorem rotation_evicts_newLogin :
    ∃ w r, Runs.run (step Sample.accounts 30)
        (Sample.rotate ++ Sample.verified "new-password" ++ [Sample.create "new-password"])
        Sample.ada = some w ∧ w.last 1 = some r ∧ Evicted Sample.accounts w r := by
  have hrun : ∃ w ∈ Runs.run (step Sample.accounts 30)
      (Sample.rotate ++ Sample.verified "new-password" ++ [Sample.create "new-password"]) Sample.ada,
      (w.last 1).isSome = true := by decide +kernel
  obtain ⟨w, hw, hlast⟩ := hrun
  obtain ⟨r, hlast⟩ := Option.isSome_iff_exists.mp hlast
  exact ⟨w, r, hw, hlast, rotation_evicts rfl rfl (by decide +kernel) hw hlast⟩

set_option maxRecDepth 20000 in
/-- A login that verified the old password creates its session after the rotation,
and nothing is under way any more. -/
theorem oldLogin_survives :
    ∃ w, Runs.run (step Sample.accounts 30)
        (Sample.verified "old-password" ++ Sample.rotate ++ [Sample.create "old-password"])
        Sample.ada = some w ∧
      w.logins = [] ∧ w.changes = [] ∧ ∃ r, w.last 1 = some r ∧ ¬ Evicted Sample.accounts w r := by
  have hrun : ∃ w ∈ Runs.run (step Sample.accounts 30)
      (Sample.verified "old-password" ++ Sample.rotate ++ [Sample.create "old-password"]) Sample.ada,
      w.logins = [] ∧ w.changes = [] ∧ ∃ r ∈ w.last 1, ¬ Evicted Sample.accounts w r := by
    decide +kernel
  obtain ⟨w, hw, hlogins, hchanges, r, hlast, hsurvives⟩ := hrun
  exact ⟨w, hw, hlogins, hchanges, r, hlast, hsurvives⟩

end Zbierak.Rotation
