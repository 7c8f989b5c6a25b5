import Zbierak.Auth
import Zbierak.Lib.Lockout

/-!
# The login throttle as an automaton

The throttle row of an identity is a function of its history: the counter is the
number of failures since the last reset, and the lock is set exactly when there
are five. The two columns are written by two case distinctions over the old row.
-/
namespace Zbierak.LoginAutomaton

open Auth (loginIdentity loginLocked throttleRow countFailure)
open Lockout (History series)

/-- The two statements that write the throttle table. -/
inductive Statement where
  | failure (email : String)
  | success (email : String)

def Statement.email : Statement → String
  | .failure email | .success email => email

def Statement.attempt : Statement → Lockout.Attempt
  | .failure _ => .failure
  | .success _ => .success

def apply (env : Crates) (db : Db) (entry : Int × Statement) : Db :=
  match entry.2 with
  | .failure email => Auth.loginFailure env db email entry.1
  | .success email => Auth.loginSuccess env db email

/-- Statements take effect one after the other. -/
def applyAll (env : Crates) (db : Db) (statements : List (Int × Statement)) : Db :=
  statements.foldl (apply env) db

/-- What the statements say about one identity. -/
def history (env : Crates) (identity : String) (statements : List (Int × Statement)) : History :=
  (statements.filter fun entry => loginIdentity env entry.2.email = identity).map fun entry =>
    (entry.1, entry.2.attempt)

/-- Counter and lock that stand for the failures of a series. -/
def columns : List Int → Option (Nat × Option Int)
  | [] => none
  | last :: earlier =>
    some (earlier.length + 1, if earlier.length + 1 = Auth.loginFailureLimit then
      some (last + Auth.loginLockSeconds) else none)

def rowColumns (row : Option LoginThrottle) : Option (Nat × Option Int) :=
  row.map fun r => (r.failures, r.lockedUntil)

theorem loginSuccess_row (env : Crates) (db : Db) (email : String) :
    throttleRow (Auth.loginSuccess env db email) (loginIdentity env email) = none := by
  simp [throttleRow, Auth.loginSuccess]

/-- Both columns of the row follow the series through a failure. -/
theorem columns_failure {row : Option LoginThrottle} {counted : List Int} (identity : String)
    (now : Int) (hrow : rowColumns row = columns counted)
    (hlen : counted.length ≤ Auth.loginFailureLimit) :
    rowColumns (some ((row.map fun r => countFailure r now).getD ⟨identity, 1, none, now⟩)) =
      columns (Lockout.count Auth.loginFailureLimit Auth.loginLockSeconds counted (now, .failure)) := by
  cases counted with
  | nil =>
    obtain rfl : row = none := by simpa [rowColumns, columns] using hrow
    rfl
  | cons last earlier =>
    obtain ⟨r, rfl⟩ : ∃ r, row = some r := by
      cases row with
      | none => cases hrow
      | some r => exact ⟨r, rfl⟩
    obtain ⟨hfailures, hlock⟩ : r.failures = earlier.length + 1 ∧ r.lockedUntil = _ := by
      simpa [rowColumns, columns] using hrow
    simp only [List.length_cons] at hlen
    by_cases hfull : earlier.length + 1 = Auth.loginFailureLimit
    · rw [if_pos hfull] at hlock
      have hroom : ¬ earlier.length + 1 < Auth.loginFailureLimit := by omega
      simp only [Lockout.count, if_neg hroom, Option.map_some, Option.getD_some, countFailure, hlock]
      split
      · simp [rowColumns, columns, hfull, hfailures]
      · rfl
    · rw [if_neg hfull] at hlock
      have hroom : earlier.length + 1 < Auth.loginFailureLimit := by omega
      have hlast : (earlier.length + 1 + 1 ≥ Auth.loginFailureLimit) ↔
          earlier.length + 1 + 1 = Auth.loginFailureLimit := by omega
      simp only [Lockout.count, if_pos hroom, Option.map_some, Option.getD_some, countFailure, hlock,
        rowColumns, columns, hfailures, List.length_cons, hlast]

theorem row_follows_series (env : Crates) {db : Db} (identity : String)
    (hstart : throttleRow db identity = none) (statements : List (Int × Statement)) :
    rowColumns (throttleRow (applyAll env db statements) identity) =
      columns (series Auth.loginFailureLimit Auth.loginLockSeconds
        (history env identity statements)) := by
  induction statements using List.reverseRecOn with
  | nil =>
    simp [applyAll, history, hstart, rowColumns, columns]
  | append_singleton statements entry ih =>
    obtain ⟨now, statement⟩ := entry
    have hrun : applyAll env db (statements ++ [(now, statement)]) =
        apply env (applyAll env db statements) (now, statement) := by
      simp [applyAll]
    by_cases hmine : loginIdentity env statement.email = identity
    · have hhistory : history env identity (statements ++ [(now, statement)]) =
          history env identity statements ++ [(now, statement.attempt)] := by
        simp [history, hmine]
      rw [hrun, hhistory, Lockout.series_append]
      cases statement with
      | failure email =>
        have hlen : (series Auth.loginFailureLimit Auth.loginLockSeconds
            (history env identity statements)).length ≤ Auth.loginFailureLimit :=
          Lockout.length_series_le (by decide) _
        have hemail : loginIdentity env email = identity := hmine
        simp only [apply, Auth.throttleRow_loginFailure, if_pos hemail]
        exact columns_failure identity now ih hlen
      | success email =>
        obtain rfl : loginIdentity env email = identity := hmine
        simp only [apply, loginSuccess_row]
        rfl
    · have hhistory : history env identity (statements ++ [(now, statement)]) =
          history env identity statements := by
        simp [history, hmine]
      rw [hrun, hhistory, ← ih]
      cases statement with
      | failure email =>
        have hemail : loginIdentity env email ≠ identity := hmine
        simp only [apply, Auth.throttleRow_loginFailure, if_neg hemail]
      | success email => exact congrArg rowColumns (Auth.throttleRow_loginSuccess hmine)

theorem rowLocked_iff {row : Option LoginThrottle} {counted : List Int}
    (hrow : rowColumns row = columns counted) (now : Int) :
    Auth.rowLocked row now = true ↔ counted.length = Auth.loginFailureLimit ∧
      ∃ last ∈ counted.head?, now < last + Auth.loginLockSeconds := by
  cases row with
  | none =>
    cases counted with
    | nil => simp [Auth.rowLocked]
    | cons last earlier => cases hrow
  | some r =>
    cases counted with
    | nil => cases hrow
    | cons last earlier =>
      obtain ⟨-, hlock⟩ : r.failures = earlier.length + 1 ∧ r.lockedUntil = _ := by
        simpa [rowColumns, columns] using hrow
      by_cases hfull : earlier.length + 1 = Auth.loginFailureLimit
      · simp [Auth.rowLocked, hlock, hfull]
      · simp [Auth.rowLocked, hlock, hfull]

/-- The counter of a row is that of its series, and the lock is set with the last one. -/
theorem row_bounds {row : LoginThrottle} {counted : List Int}
    (hrow : rowColumns (some row) = columns counted)
    (hlen : counted.length ≤ Auth.loginFailureLimit) :
    1 ≤ row.failures ∧ row.failures ≤ 5 ∧ (row.lockedUntil.isSome ↔ row.failures = 5) := by
  cases counted with
  | nil => cases hrow
  | cons last earlier =>
    obtain ⟨hfailures, hlock⟩ : row.failures = earlier.length + 1 ∧ row.lockedUntil = _ := by
      simpa [rowColumns, columns] using hrow
    simp only [List.length_cons] at hlen
    refine ⟨by omega, by rwa [hfailures], ?_⟩
    rw [hlock, hfailures]
    by_cases hfull : earlier.length + 1 = Auth.loginFailureLimit
    · rw [if_pos hfull]
      exact iff_of_true rfl hfull
    · rw [if_neg hfull]
      exact iff_of_false (by simp) hfull

/-- An identity is locked at `now` exactly when a failure less than 900 seconds
ago was the fifth that counted since the last reset and no success followed, and
its row holds one to five failures, with a lock set exactly at five. -/
theorem login_locked_iff (env : Crates) {db : Db} {identity : String}
    (hstart : throttleRow db identity = none) {statements : List (Int × Statement)} {now : Int}
    (hpast : ∀ entry ∈ statements, entry.1 ≤ now) {email : String}
    (hemail : loginIdentity env email = identity) :
    (loginLocked env (applyAll env db statements) email now = true ↔
      Lockout.Locked 5 900 (history env identity statements) now) ∧
    ∀ row ∈ throttleRow (applyAll env db statements) identity,
      1 ≤ row.failures ∧ row.failures ≤ 5 ∧ (row.lockedUntil.isSome ↔ row.failures = 5) := by
  have hrow := row_follows_series env identity hstart statements
  constructor
  · have hhistory : ∀ a ∈ history env identity statements, a.1 ≤ now := by
      intro a ha
      obtain ⟨entry, hentry, rfl⟩ := List.mem_map.mp ha
      exact hpast entry (List.mem_filter.mp hentry).1
    rw [loginLocked, hemail, rowLocked_iff hrow]
    exact (Lockout.locked_iff (by decide) hhistory).symm
  · intro row hmem
    rw [Option.mem_def.mp hmem] at hrow
    exact row_bounds hrow (Lockout.length_series_le (by decide) _)

/-- A success, five failures after it, and one more during the lock. -/
def Sample.statements : List (Int × Statement) :=
  [(0, .failure "a@b.c"), (0, .success "a@b.c"), (0, .failure "a@b.c"), (1, .failure "A@b.c"),
    (2, .failure "a@b.c"), (3, .failure " a@b.c"), (4, .failure "a@b.c"), (900, .failure "a@b.c")]

theorem login_locked_iff_sample :
    loginLocked Sample.crates (applyAll Sample.crates Db.empty Sample.statements) "a@b.c" 903 = true ∧
      Lockout.Locked 5 900
        (history Sample.crates (loginIdentity Sample.crates "a@b.c") Sample.statements) 903 := by
  have hlocked : loginLocked Sample.crates (applyAll Sample.crates Db.empty Sample.statements)
      "a@b.c" 903 = true := by decide +kernel
  exact ⟨hlocked, (login_locked_iff Sample.crates rfl (by decide) rfl).1.mp hlocked⟩

end Zbierak.LoginAutomaton
