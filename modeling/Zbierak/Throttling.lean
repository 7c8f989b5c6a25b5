import Zbierak.Lib.Limiter
import Zbierak.Login

/-!
# The brute-force bound

Seen from one account, the login requests drive a failure limiter. Every step
of every request is a step of the limiter or none, provided that no request is
admitted when the failures counted and the requests under way fill the limit.
-/
namespace Zbierak.Throttling

open Login

/-- Failures counted in the current series; a lock ends the series. -/
def countedFailures (row : Option LoginThrottle) : Nat :=
  match row with
  | some r => if r.lockedUntil = none then r.failures else 0
  | none => 0

/-- Past the lock check, and no wrong password verified. -/
def isWaiting : Stage → Bool
  | .checked | .found _ _ | .unknown => true
  | .rejected _ | .accepted _ => false

/-- A wrong password is verified and not recorded yet. -/
def isFailed : Stage → Bool
  | .rejected _ => true
  | .checked | .found _ _ | .unknown | .accepted _ => false

def Waiting (env : Crates) (identity : String) (a : Attempt) : Bool :=
  Auth.loginIdentity env a.form.email = identity ∧ isWaiting a.stage

def Failed (env : Crates) (identity : String) (a : Attempt) : Bool :=
  Auth.loginIdentity env a.form.email = identity ∧ isFailed a.stage

/-- The limiter that guards one account. -/
def view (env : Crates) (identity : String) (userId : Int) (w : World) : Limiter.State where
  clock := w.clock
  counted := countedFailures (Auth.throttleRow w.db identity)
  lockedUntil := (Auth.throttleRow w.db identity).bind LoginThrottle.lockedUntil
  waiting := w.attempts.countP (Waiting env identity)
  failed := w.attempts.countP (Failed env identity)
  log := w.wrongTimes userId

/-- A request that passes the lock check leaves room for the failure of every
request already past it. -/
def RoomToFail (env : Crates) (identity : String) (w : World) : Label → Prop
  | .start _ form =>
    Auth.loginIdentity env form.email = identity →
      Auth.loginLocked env w.db form.email w.clock = false →
        countedFailures (Auth.throttleRow w.db identity) +
          (w.attempts.countP (Waiting env identity) + w.attempts.countP (Failed env identity)) <
            Auth.loginFailureLimit
  | _ => True

/-- A request that passes the lock check under any spelling of the account's email
is throttled under the identity. -/
def OneIdentity (env : Crates) (identity : String) (u : User) (w : World) : Label → Prop
  | .start _ form =>
    nocaseEq u.email (Text.trim form.email) = true →
      Auth.loginLocked env w.db form.email w.clock = false →
        Auth.loginIdentity env form.email = identity
  | _ => True

/-- No login throttled under the identity succeeds. -/
def NoLoginSucceeds (env : Crates) (identity : String) (_ : World) : Label → Prop
  | .advance a _ _ =>
    match a.stage with
    | .accepted _ => Auth.loginIdentity env a.form.email ≠ identity
    | _ => True
  | _ => True

instance (env : Crates) (identity : String) (w : World) :
    ∀ label, Decidable (RoomToFail env identity w label)
  | .start _ _ => by unfold RoomToFail; infer_instance
  | .tick _ | .advance _ _ _ => isTrue trivial

instance (env : Crates) (identity : String) (u : User) (w : World) :
    ∀ label, Decidable (OneIdentity env identity u w label)
  | .start _ _ => by unfold OneIdentity; infer_instance
  | .tick _ | .advance _ _ _ => isTrue trivial

instance (env : Crates) (identity : String) (w : World) :
    ∀ label, Decidable (NoLoginSucceeds env identity w label)
  | .advance ⟨_, .accepted _⟩ _ _ => by unfold NoLoginSucceeds; infer_instance
  | .advance ⟨_, .checked⟩ _ _ | .advance ⟨_, .found _ _⟩ _ _ | .advance ⟨_, .unknown⟩ _ _
  | .advance ⟨_, .rejected _⟩ _ _ | .tick _ | .start _ _ => isTrue trivial

/-- All spellings of an email without a NUL have one digest. -/
theorem oneIdentity_of_no_nul {env : Crates} {u : User} (h : Nocase.nul ∉ u.email.toList) (w : World)
    (label : Label) :
    OneIdentity env (Auth.tokenHash env (Text.toAsciiLowercase u.email)) u w label := by
  cases label with
  | start cookieToken form =>
    intro hspelled _
    rw [nocaseEq_iff, Nocase.key_eq_iff h] at hspelled
    rw [Auth.loginIdentity, hspelled]
  | tick | advance => trivial

/-- Requests that name or have found the user are throttled under the user's identity. -/
def Named (env : Crates) (identity : String) (u : User) (userId : Int) (w : World) : Prop :=
  ∀ a ∈ w.attempts, nocaseEq u.email (Text.trim a.form.email) = true ∨
      (∃ hash, a.stage = .found userId hash) ∨ a.stage = .rejected userId →
    Auth.loginIdentity env a.form.email = identity

theorem countedFailures_free {row : LoginThrottle} (h : row.lockedUntil = none) :
    countedFailures (some row) = row.failures := if_pos h

theorem countedFailures_locked {row : LoginThrottle} {until_ : Int}
    (h : row.lockedUntil = some until_) : countedFailures (some row) = 0 := by
  simp [countedFailures, h]

/-- The row after a failure that no lock swallows. -/
theorem countFailure_row (row : Option LoginThrottle) (identity : String) (now : Int)
    (hfree : ∀ until_ ∈ row.bind LoginThrottle.lockedUntil, until_ ≤ now) :
    let next := (row.map fun r => Auth.countFailure r now).getD ⟨identity, 1, none, now⟩
    if countedFailures row + 1 < Auth.loginFailureLimit then
      next.failures = countedFailures row + 1 ∧ next.lockedUntil = none
    else next.lockedUntil = some (now + Auth.loginLockSeconds) := by
  cases row with
  | none => simp [countedFailures, Auth.loginFailureLimit]
  | some r =>
    cases hlock : r.lockedUntil with
    | none =>
      by_cases hlimit : r.failures + 1 < Auth.loginFailureLimit
      · simp [Auth.countFailure, countedFailures, hlock, hlimit, Nat.not_le.mpr hlimit]
      · simp [Auth.countFailure, countedFailures, hlock, hlimit, Nat.not_lt.mp hlimit]
    | some until_ =>
      have hpast : until_ ≤ now := hfree until_ hlock
      simp [Auth.countFailure, countedFailures, hlock, Int.not_lt.mpr hpast, Auth.loginFailureLimit]

/-- A recorded failure of the identity is counted by the limiter. -/
theorem view_loginFailure {env : Crates} {identity email : String} {userId : Int} {w : World}
    {attempts : List Attempt} {db : Db} (hemail : Auth.loginIdentity env email = identity)
    (hdb : db.loginThrottle = (Auth.loginFailure env w.db email w.clock).loginThrottle)
    (hfree : (view env identity userId w).Unlocked) :
    view env identity userId { w with attempts, db } =
      Limiter.State.count Auth.loginFailureLimit Auth.loginLockSeconds
        (view env identity userId { w with attempts }) := by
  have hsame : Auth.throttleRow db identity =
      Auth.throttleRow (Auth.loginFailure env w.db email w.clock) identity := by
    simp only [Auth.throttleRow, hdb]
  have hrow := Auth.throttleRow_loginFailure env w.db email w.clock identity
  rw [if_pos hemail, ← hsame] at hrow
  have hnext := countFailure_row (Auth.throttleRow w.db identity) identity w.clock hfree
  dsimp only at hnext
  generalize Option.getD _ (⟨identity, 1, none, w.clock⟩ : LoginThrottle) = next at hrow hnext
  simp only [view, hrow, Limiter.State.count]
  split at hnext
  · next hlimit =>
    simp [hlimit, countedFailures_free hnext.2, hnext, World.wrongTimes]
  · next hlimit =>
    simp [hlimit, countedFailures_locked hnext, hnext, World.wrongTimes]

/-- What happens under another identity is no step of the limiter. -/
theorem view_other {env : Crates} {identity : String} {userId : Int} {w : World}
    {attempts : List Attempt} {db : Db}
    (hrow : Auth.throttleRow db identity = Auth.throttleRow w.db identity)
    (hwaiting : attempts.countP (Waiting env identity) = w.attempts.countP (Waiting env identity))
    (hfailed : attempts.countP (Failed env identity) = w.attempts.countP (Failed env identity)) :
    view env identity userId { w with attempts, db } = view env identity userId w := by
  simp only [view, hrow, hwaiting, hfailed, World.wrongTimes]

theorem countP_erase {p : Attempt → Bool} {a : Attempt} {attempts : List Attempt}
    (h : a ∈ attempts) :
    attempts.countP p = (attempts.erase a).countP p + if p a then 1 else 0 := by
  rw [(List.perm_cons_erase h).countP_eq, List.countP_cons]

section Steps

variable {env : Crates} {sessionDays : Int} {identity : String} {userId : Int} {w : World}

/-- A request is admitted by the limiter when it is for the account. -/
theorem step_start {cookieToken : String} {form : LoginForm} {a : Attempt}
    (hroom : RoomToFail env identity w (.start cookieToken form))
    (h : start env w.db w.clock cookieToken form = .ok a) :
    Limiter.Step Auth.loginFailureLimit Auth.loginLockSeconds (view env identity userId w)
      (view env identity userId { w with attempts := a :: w.attempts }) := by
  obtain ⟨rfl, hlocked⟩ := start_ok h
  by_cases hemail : Auth.loginIdentity env form.email = identity
  · have hcount := hroom hemail hlocked
    have hfree : (view env identity userId w).Unlocked := by
      simp only [Auth.loginLocked, hemail] at hlocked
      exact Auth.rowLocked_eq_false.mp hlocked
    have henter : Limiter.Step Auth.loginFailureLimit Auth.loginLockSeconds
        (view env identity userId w) _ := .enter _ hfree hcount
    simpa [view, Waiting, Failed, isWaiting, isFailed, hemail, World.wrongTimes] using henter
  · have hsame : view env identity userId { w with attempts := ⟨form, .checked⟩ :: w.attempts } =
        view env identity userId w :=
      view_other rfl (by simp [Waiting, hemail]) (by simp [Failed, hemail])
    rw [hsame]
    exact .idle _

/-- Moving an attempt between stages that count alike. -/
theorem view_replace {a : Attempt} {stage : Stage} (ha : a ∈ w.attempts)
    (hwaiting : isWaiting stage = isWaiting a.stage) (hfailed : isFailed stage = isFailed a.stage) :
    view env identity userId { w with attempts := ⟨a.form, stage⟩ :: w.attempts.erase a } =
      view env identity userId w := by
  refine view_other rfl ?_ ?_
  · simp [countP_erase ha, Waiting, hwaiting, List.countP_cons]
  · simp [countP_erase ha, Failed, hfailed, List.countP_cons]

theorem step_lookup {a : Attempt} (ha : a ∈ w.attempts) (hstage : a.stage = .checked) :
    view env identity userId
        { w with attempts := ⟨a.form, findUser w.db a.form.email⟩ :: w.attempts.erase a } =
      view env identity userId w := by
  rcases findUser_cases w.db a.form.email with ⟨id, u, -, -, hfound⟩ | hfound <;>
    exact view_replace ha (by rw [hfound, hstage]; rfl) (by rw [hfound, hstage]; rfl)

/-- A verified password leaves the limiter or fails. -/
theorem step_verify {a : Attempt} {id : Int} {hash : String} (ha : a ∈ w.attempts)
    (hstage : a.stage = .found id hash)
    (hnamed : id = userId → Auth.loginIdentity env a.form.email = identity) :
    Limiter.Step Auth.loginFailureLimit Auth.loginLockSeconds (view env identity userId w)
      (view env identity userId { w with
        attempts := ⟨a.form, verify env a.form id hash⟩ :: w.attempts.erase a
        wrong := if verify env a.form id hash = .rejected id then w.wrong ++ [(id, w.clock)]
          else w.wrong }) := by
  have hwaiting := countP_erase (p := Waiting env identity) ha
  have hfailed := countP_erase (p := Failed env identity) ha
  by_cases hemail : Auth.loginIdentity env a.form.email = identity
  · simp only [Waiting, Failed, hemail, hstage, isWaiting, isFailed, and_self, decide_true, if_true,
      Bool.false_eq_true, and_false, decide_false, if_false, Nat.add_zero] at hwaiting hfailed
    rcases verify_cases env a.form id hash with hverify | hverify
    · have hleave : Limiter.Step Auth.loginFailureLimit Auth.loginLockSeconds
          (view env identity userId w) _ := .leave _ _ hwaiting
      simpa [view, hverify, Waiting, Failed, isWaiting, isFailed, hfailed, World.wrongTimes]
        using hleave
    · have hlogged : ([(id, w.clock)].filter fun entry => entry.1 = userId).map Prod.snd = [] ∨
          ([(id, w.clock)].filter fun entry => entry.1 = userId).map Prod.snd = [w.clock] := by
        by_cases hid : id = userId <;> simp [hid]
      have hfail : Limiter.Step Auth.loginFailureLimit Auth.loginLockSeconds
          (view env identity userId w) _ := .fail _ _ _ hwaiting hlogged
      simpa [view, hverify, Waiting, Failed, isWaiting, isFailed, hemail, hfailed, World.wrongTimes]
        using hfail
  · have hne : id ≠ userId := fun h => hemail (hnamed h)
    have hsame : view env identity userId { w with
        attempts := ⟨a.form, verify env a.form id hash⟩ :: w.attempts.erase a
        wrong := if verify env a.form id hash = .rejected id then w.wrong ++ [(id, w.clock)]
          else w.wrong } = view env identity userId w := by
      rcases verify_cases env a.form id hash with hverify | hverify <;>
        simp [view, hverify, Waiting, Failed, hemail, World.wrongTimes, hne] at hwaiting hfailed ⊢ <;>
        simp [hwaiting, hfailed]
    rw [hsame]
    exact .idle _

/-- A recorded failure of an attempt under way is counted. -/
theorem step_failure {a : Attempt} {db : Db} (ha : a ∈ w.attempts)
    (hpending : isWaiting a.stage = true ∨ isFailed a.stage = true)
    (hdb : db.loginThrottle = (Auth.loginFailure env w.db a.form.email w.clock).loginThrottle)
    (hinv : Limiter.Inv Auth.loginFailureLimit Auth.loginLockSeconds (view env identity userId w)) :
    Limiter.Step Auth.loginFailureLimit Auth.loginLockSeconds (view env identity userId w)
      (view env identity userId { w with attempts := w.attempts.erase a, db }) := by
  have hwaiting := countP_erase (p := Waiting env identity) ha
  have hfailed := countP_erase (p := Failed env identity) ha
  by_cases hemail : Auth.loginIdentity env a.form.email = identity
  · have hone : (w.attempts.erase a).countP (Waiting env identity) +
        (w.attempts.erase a).countP (Failed env identity) + 1 =
          w.attempts.countP (Waiting env identity) + w.attempts.countP (Failed env identity) := by
      rw [hwaiting, hfailed]
      cases hstage : a.stage <;> simp_all [Waiting, Failed, isWaiting, isFailed] <;> omega
    have hfree := hinv.unlocked (by dsimp only [view]; omega)
    rw [view_loginFailure hemail hdb hfree]
    exact .count _ _ _ (by dsimp only [view]; omega) (by dsimp only [view]; omega) hone
  · have hsame : view env identity userId { w with attempts := w.attempts.erase a, db } =
        view env identity userId w := by
      refine view_other ?_ ?_ ?_
      · have hrow := Auth.throttleRow_loginFailure env w.db a.form.email w.clock identity
        rw [if_neg hemail] at hrow
        simpa only [Auth.throttleRow, hdb] using hrow
      · simpa [Waiting, hemail] using hwaiting.symm
      · simpa [Failed, hemail] using hfailed.symm
    rw [hsame]
    exact .idle _

/-- Under the conditions every step of a login is a step of the limiter. -/
theorem step_view {w' : World} {label : Label} {u : User} (hnamed : Named env identity u userId w)
    (hquiet : NoLoginSucceeds env identity w label) (hroom : RoomToFail env identity w label)
    (hinv : Limiter.Inv Auth.loginFailureLimit Auth.loginLockSeconds (view env identity userId w))
    (h : step env sessionDays w label = some w') :
    Limiter.Step Auth.loginFailureLimit Auth.loginLockSeconds (view env identity userId w)
      (view env identity userId w') := by
  cases label with
  | tick seconds =>
    cases h
    exact .tick _ seconds
  | start cookieToken form =>
    simp only [step] at h
    split at h
    · next hstart =>
      cases h
      exact step_start hroom hstart
    · cases h
      exact .idle _
  | advance a token csrf =>
    simp only [step] at h
    split at h
    · next ha =>
      cases h
      unfold advance
      cases hstage : a.stage with
      | checked =>
        dsimp only
        rw [step_lookup ha hstage]
        exact .idle _
      | found id hash =>
        refine step_verify ha hstage fun hid => hnamed a ha (.inr (.inl ⟨hash, ?_⟩))
        rw [hstage, hid]
      | unknown => exact step_failure ha (.inl (by rw [hstage]; rfl)) rfl hinv
      | rejected id => exact step_failure ha (.inr (by rw [hstage]; rfl)) rfl hinv
      | accepted id =>
        have hemail : Auth.loginIdentity env a.form.email ≠ identity := by
          simpa only [NoLoginSucceeds, hstage] using hquiet
        have hwaiting := countP_erase (p := Waiting env identity) ha
        have hfailed := countP_erase (p := Failed env identity) ha
        have hrow : Auth.throttleRow
            (recordAccepted env sessionDays a.form id w.clock token csrf w.db).2 identity =
              Auth.throttleRow w.db identity := by
          rw [Auth.throttleRow, loginThrottle_recordAccepted]
          exact Auth.throttleRow_loginSuccess hemail
        dsimp only
        rw [view_other hrow (by simpa [Waiting, hemail] using hwaiting.symm)
          (by simpa [Failed, hemail] using hfailed.symm)]
        exact .idle _
    · cases h

theorem named_step {w' : World} {label : Label} {u : User} (huser : w.db.users.get? userId = some u)
    (hone : OneIdentity env identity u w label) (hnamed : Named env identity u userId w)
    (h : step env sessionDays w label = some w') : Named env identity u userId w' := by
  cases label with
  | tick seconds =>
    cases h
    exact hnamed
  | start cookieToken form =>
    simp only [step] at h
    split at h
    · next hstart =>
      cases h
      obtain ⟨rfl, hlocked⟩ := start_ok hstart
      refine List.forall_mem_cons.mpr ⟨?_, hnamed⟩
      rintro (hspelled | ⟨hash, hfound⟩ | hfound)
      · exact hone hspelled hlocked
      · cases hfound
      · cases hfound
    · cases h
      exact hnamed
  | advance a token csrf =>
    simp only [step] at h
    split at h
    · next ha =>
      cases h
      have hothers : ∀ b ∈ w.attempts.erase a, nocaseEq u.email (Text.trim b.form.email) = true ∨
          (∃ hash, b.stage = .found userId hash) ∨ b.stage = .rejected userId →
            Auth.loginIdentity env b.form.email = identity :=
        fun b hb => hnamed b (List.mem_of_mem_erase hb)
      unfold advance
      cases hstage : a.stage with
      | checked =>
        refine List.forall_mem_cons.mpr ⟨?_, hothers⟩
        rintro (hspelled | ⟨hash, hfound⟩ | hfound)
        · exact hnamed a ha (.inl hspelled)
        · exact hnamed a ha (.inl (findUser_email huser hfound))
        · rcases findUser_cases w.db a.form.email with ⟨id, u', -, -, hfind⟩ | hfind <;>
            cases hfind.symm.trans hfound
      | found id hash =>
        refine List.forall_mem_cons.mpr ⟨?_, hothers⟩
        rintro (hspelled | hfound)
        · exact hnamed a ha (.inl hspelled)
        · rcases verify_cases env a.form id hash with hverify | hverify <;> rw [hverify] at hfound
          · rcases hfound with ⟨hash, hfound⟩ | hfound <;> cases hfound
          · rcases hfound with ⟨hash, hfound⟩ | hfound <;> cases hfound
            exact hnamed a ha (.inr (.inl ⟨hash, hstage⟩))
      | unknown => exact hothers
      | rejected id => exact hothers
      | accepted id => exact hothers
    · cases h

end Steps

/-- While no login of the account succeeds, at most five wrong passwords are
verified for it in any window of 900 seconds, provided that all its spellings are
throttled alike and that every request that passes the lock check leaves room for
the failures of those under way. -/
theorem wrong_passwords_bounded {env : Crates} {sessionDays userId : Int} {u : User}
    {labels : List Label} {w₀ w : World} (huser : w₀.db.users.get? userId = some u)
    (hattempts : w₀.attempts = []) (hwrong : w₀.wrong = [])
    (hquiet : Runs.Along (step env sessionDays)
      (NoLoginSucceeds env (Auth.tokenHash env (Text.toAsciiLowercase u.email))) labels w₀)
    (hone : Runs.Along (step env sessionDays)
      (OneIdentity env (Auth.tokenHash env (Text.toAsciiLowercase u.email)) u) labels w₀)
    (hroom : Runs.Along (step env sessionDays)
      (RoomToFail env (Auth.tokenHash env (Text.toAsciiLowercase u.email))) labels w₀)
    (hr : Runs.run (step env sessionDays) labels w₀ = some w) :
    Window.AtMost 5 900 (w.wrongTimes userId) := by
  generalize Auth.tokenHash env (Text.toAsciiLowercase u.email) = identity at hquiet hone hroom
  have hstart : Limiter.Inv Auth.loginFailureLimit Auth.loginLockSeconds
      (view env identity userId w₀) :=
    Limiter.inv_start (by simp [view, hattempts]) (by simp [view, hattempts])
      (by simp [view, World.wrongTimes, hwrong])
  have hnamed : Named env identity u userId w₀ := by simp [Named, hattempts]
  have hinv := Runs.along_invariant (I := fun w => w.db.users.get? userId = some u ∧
      Named env identity u userId w ∧
      Limiter.Inv Auth.loginFailureLimit Auth.loginLockSeconds (view env identity userId w))
    (fun s a t ⟨huser, hnamed, hinv⟩ ⟨hquiet, hone, hroom⟩ h =>
      ⟨by rw [users_step h]; exact huser, named_step huser hone hnamed h,
        hinv.step (step_view hnamed hquiet hroom hinv h)⟩)
    hr (hquiet.and (hone.and hroom)) ⟨huser, hnamed, hstart⟩
  exact hinv.2.2.atMost

/-- One user, and nobody logging in. -/
def oneUser : World where
  db := { Db.empty with users := Table.empty.insert ⟨"ada@example.org", "Ada", "$argon2id$"⟩ }
  clock := 1000
  attempts := []
  wrong := []

def guess (password : String) : LoginForm := ⟨"challenge", "ada@example.org", password⟩

/-- A wrong password that is recorded before anybody else comes. -/
def oneGuess : List Label := [
  .start "challenge" (guess "tulip"),
  .advance ⟨guess "tulip", .checked⟩ "" "",
  .advance ⟨guess "tulip", .found 1 "$argon2id$"⟩ "" "",
  .advance ⟨guess "tulip", .rejected 1⟩ "" ""]

set_option maxRecDepth 20000 in
theorem wrong_passwords_bounded_oneGuess :
    ∃ w, Runs.run (step Sample.crates 30) oneGuess oneUser = some w ∧
      Window.AtMost 5 900 (w.wrongTimes 1) := by
  have hr : (Runs.run (step Sample.crates 30) oneGuess oneUser).isSome = true := by decide
  exact ⟨_, (Option.some_get hr).symm, wrong_passwords_bounded
    (u := ⟨"ada@example.org", "Ada", "$argon2id$"⟩) rfl rfl rfl (by decide)
    (Runs.along_of_forall (oneIdentity_of_no_nul (by decide)) _ _) (by decide)
    (Option.some_get hr).symm⟩

def guesses : List String := ["rose", "tulip", "daisy", "peony", "aster", "poppy"]

/-- Six wrong passwords that all pass the lock check before one is recorded. -/
def sixGuesses : List Label :=
  (guesses.map fun password => .start "challenge" (guess password)) ++
  (guesses.map fun password => .advance ⟨guess password, .checked⟩ "" "") ++
  guesses.map fun password => .advance ⟨guess password, .found 1 "$argon2id$"⟩ "" ""

set_option maxRecDepth 20000 in
theorem sixGuesses_exceed_limit :
    Runs.Along (step Sample.crates 30) (NoLoginSucceeds Sample.crates
      (Auth.tokenHash Sample.crates (Text.toAsciiLowercase "ada@example.org"))) sixGuesses oneUser ∧
    ∃ w, Runs.run (step Sample.crates 30) sixGuesses oneUser = some w ∧
      ¬ Window.AtMost 5 900 (w.wrongTimes 1) := by
  have hsix : ∃ w ∈ Runs.run (step Sample.crates 30) sixGuesses oneUser,
      5 < (w.wrongTimes 1).countP (Window.within 1000 900) := by decide
  obtain ⟨w, hr, hsix⟩ := hsix
  exact ⟨by decide, w, hr, fun hbound => Nat.not_le.mpr hsix (hbound 1000)⟩

end Zbierak.Throttling
