import Zbierak.Lib.Runs
import Zbierak.Auth

/-!
# Logging in

`login` tests the lock, looks the user up, verifies the password and records
the outcome in separate statements, so other requests run in between. A request
under way is an `Attempt`, and each of its steps is a definition.
-/
namespace Zbierak.Login

structure LoginForm where
  csrfToken : String
  email : String
  password : String
  deriving DecidableEq, Repr

/-- How far a request has come. -/
inductive Stage where
  | checked
  | found (userId : Int) (hash : String)
  | unknown
  | rejected (userId : Int)
  | accepted (userId : Int)
  deriving DecidableEq, Repr

structure Attempt where
  form : LoginForm
  stage : Stage
  deriving DecidableEq, Repr

/-- The checks that come first; `cookieToken` is empty without a cookie. -/
def start (env : Crates) (db : Db) (now : Int) (cookieToken : String) (form : LoginForm) :
    Except AppError Attempt :=
  if Auth.secureEq cookieToken form.csrfToken = false ∨ cookieToken = "" then .error .forbidden
  else if Auth.loginLocked env db form.email now then .error .unauthorized
  else .ok ⟨form, .checked⟩

def findUser (db : Db) (email : String) : Stage :=
  match db.users.find? fun _ u => nocaseEq u.email (Text.trim email) with
  | some (userId, u) => .found userId u.passwordHash
  | none => .unknown

def verify (env : Crates) (form : LoginForm) (userId : Int) (hash : String) : Stage :=
  if env.verifyPassword form.password hash then .accepted userId else .rejected userId

def recordUnknown (env : Crates) (form : LoginForm) (now : Int) (db : Db) : Db :=
  (Auth.loginFailure env db form.email now).record none "user.login_failed" (some "identity")
    (some (Auth.loginIdentity env form.email)) (.object [("reason", .string "unknown_email")])

def recordRejected (env : Crates) (form : LoginForm) (userId now : Int) (db : Db) : Db :=
  (Auth.loginFailure env db form.email now).record (some userId) "user.login_failed" (some "user")
    (some (toString userId)) (.object [("reason", .string "wrong_password")])

/-- `token` and `csrf` are the random credentials of the new session. Without the
session there is no record of the login. -/
def recordAccepted (env : Crates) (sessionDays : Int) (form : LoginForm) (userId now : Int)
    (token csrf : String) (db : Db) : Except AppError Unit × Db :=
  let cleared := Auth.loginSuccess env db form.email
  match Auth.createSession env userId token csrf now sessionDays cleared with
  | .ok (opened, ()) => (.ok (), opened.record (some userId) "user.login" (some "user")
      (some (toString userId)) (.object []))
  | .error e => (.error e, cleared)

/-- What recording an accepted login does: it forgets the failures of the account,
and opens one session of the user or fails. -/
theorem recordAccepted_cases (env : Crates) (sessionDays : Int) (form : LoginForm) (userId now : Int)
    (token csrf : String) (db : Db) :
    (∃ db' s, s.userId = userId ∧ db'.users = db.users ∧ db'.sessions = db.sessions.insert s ∧
      db'.loginThrottle = (Auth.loginSuccess env db form.email).loginThrottle ∧
      recordAccepted env sessionDays form userId now token csrf db = (.ok (), db')) ∨
    ∃ e, recordAccepted env sessionDays form userId now token csrf db =
      (.error e, Auth.loginSuccess env db form.email) := by
  unfold recordAccepted
  dsimp only
  cases hopen : Auth.createSession env userId token csrf now sessionDays
      (Auth.loginSuccess env db form.email) with
  | ok opened =>
    obtain ⟨opened, u⟩ := opened
    obtain ⟨-, rfl⟩ := Auth.createSession_ok hopen
    refine .inl ⟨_, ⟨Auth.tokenHash env token, userId, csrf, now + sessionDays * 86400⟩, rfl, ?_, ?_,
      ?_, rfl⟩
    · rfl
    · rfl
    · rfl
  | error e => exact .inr ⟨e, rfl⟩

theorem loginThrottle_recordAccepted (env : Crates) (sessionDays : Int) (form : LoginForm)
    (userId now : Int) (token csrf : String) (db : Db) :
    (recordAccepted env sessionDays form userId now token csrf db).2.loginThrottle =
      (Auth.loginSuccess env db form.email).loginThrottle := by
  rcases recordAccepted_cases env sessionDays form userId now token csrf db with
    ⟨db', s, -, -, -, hthrottle, hrecorded⟩ | ⟨e, hrecorded⟩
  · rw [hrecorded, hthrottle]
  · rw [hrecorded]

/-- The store, the requests under way, and the user and the time of every wrong
password that was verified. -/
structure World where
  db : Db
  clock : Int
  attempts : List Attempt
  wrong : List (Int × Int)

inductive Label where
  | tick (seconds : Nat)
  | start (cookieToken : String) (form : LoginForm)
  | advance (attempt : Attempt) (token csrf : String)

/-- The next step of an attempt that is under way. -/
def advance (env : Crates) (sessionDays : Int) (w : World) (a : Attempt) (token csrf : String) :
    World :=
  let others := w.attempts.erase a
  match a.stage with
  | .checked => { w with attempts := ⟨a.form, findUser w.db a.form.email⟩ :: others }
  | .found userId hash =>
    let stage := verify env a.form userId hash
    { w with
      attempts := ⟨a.form, stage⟩ :: others
      wrong := if stage = .rejected userId then w.wrong ++ [(userId, w.clock)] else w.wrong }
  | .unknown => { w with attempts := others, db := recordUnknown env a.form w.clock w.db }
  | .rejected userId =>
    { w with attempts := others, db := recordRejected env a.form userId w.clock w.db }
  | .accepted userId =>
    { w with
      attempts := others
      db := (recordAccepted env sessionDays a.form userId w.clock token csrf w.db).2 }

def step (env : Crates) (sessionDays : Int) (w : World) : Label → Option World
  | .tick seconds => some { w with clock := w.clock + seconds }
  | .start cookieToken form =>
    match start env w.db w.clock cookieToken form with
    | .ok attempt => some { w with attempts := attempt :: w.attempts }
    | .error _ => some w
  | .advance attempt token csrf =>
    if attempt ∈ w.attempts then some (advance env sessionDays w attempt token csrf) else none

/-- When wrong passwords were verified for one user. -/
def World.wrongTimes (w : World) (userId : Int) : List Int :=
  (w.wrong.filter fun entry => entry.1 = userId).map Prod.snd

theorem start_ok {env : Crates} {db : Db} {now : Int} {cookieToken : String} {form : LoginForm}
    {a : Attempt} (h : start env db now cookieToken form = .ok a) :
    a = ⟨form, .checked⟩ ∧ Auth.loginLocked env db form.email now = false := by
  unfold start at h
  split at h
  · cases h
  · split at h
    · cases h
    · next hlocked =>
      cases h
      exact ⟨rfl, by simpa using hlocked⟩

theorem findUser_cases (db : Db) (email : String) :
    (∃ userId u, db.users.get? userId = some u ∧ nocaseEq u.email (Text.trim email) = true ∧
      findUser db email = .found userId u.passwordHash) ∨ findUser db email = .unknown := by
  unfold findUser
  split
  · next userId u hfind =>
    obtain ⟨hget, hemail⟩ := db.users.find?_some hfind
    exact .inl ⟨userId, u, hget, hemail, rfl⟩
  · exact .inr rfl

theorem verify_cases (env : Crates) (form : LoginForm) (userId : Int) (hash : String) :
    verify env form userId hash = .accepted userId ∨
      verify env form userId hash = .rejected userId := by
  unfold verify
  split
  · exact .inl rfl
  · exact .inr rfl

/-- Logging in leaves the user table alone. -/
theorem users_step {env : Crates} {sessionDays : Int} {w w' : World} {label : Label}
    (h : step env sessionDays w label = some w') : w'.db.users = w.db.users := by
  cases label with
  | tick seconds =>
    cases h
    rfl
  | start cookieToken form =>
    simp only [step] at h
    split at h <;> cases h <;> rfl
  | advance a token csrf =>
    simp only [step] at h
    split at h
    · cases h
      unfold advance
      split
      · rfl
      · rfl
      · rfl
      · rfl
      · next id _ =>
        rcases recordAccepted_cases env sessionDays a.form id w.clock token csrf w.db with
          ⟨db, s, -, husers, -, -, hrecorded⟩ | ⟨e, hrecorded⟩
        · rw [hrecorded]
          exact husers
        · rw [hrecorded]
          rfl
    · cases h

/-- A look-up that finds a user is made under a spelling of the user's email. -/
theorem findUser_email {db : Db} {userId : Int} {u : User} {email hash : String}
    (huser : db.users.get? userId = some u) (h : findUser db email = .found userId hash) :
    nocaseEq u.email (Text.trim email) = true := by
  rcases findUser_cases db email with ⟨id, u', hget, hemail, hfound⟩ | hfound
  · rw [hfound, Stage.found.injEq] at h
    obtain ⟨rfl, -⟩ := h
    obtain rfl : u = u' := by simpa [huser] using hget
    exact hemail
  · rw [hfound] at h
    cases h

end Zbierak.Login
