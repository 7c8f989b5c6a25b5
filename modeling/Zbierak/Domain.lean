import Mathlib.Logic.Basic

/-!
# Roles, issue states and errors

Enumerations are parsed from their database spelling at the boundary, so
authorization and status changes never depend on free-form strings.
-/
namespace Zbierak

/-- Project membership roles, ordered by capability. -/
inductive ProjectRole where
  | viewer | developer | admin | owner
  deriving DecidableEq, Repr

namespace ProjectRole

/-- Position in the order of declaration, which the derived order compares. -/
def rank : ProjectRole → Nat
  | viewer => 0
  | developer => 1
  | admin => 2
  | owner => 3

instance : LE ProjectRole := ⟨fun a b => a.rank ≤ b.rank⟩

instance : LT ProjectRole := ⟨fun a b => a.rank < b.rank⟩

theorem le_def (a b : ProjectRole) : a ≤ b ↔ a.rank ≤ b.rank := Iff.rfl

theorem lt_def (a b : ProjectRole) : a < b ↔ a.rank < b.rank := Iff.rfl

instance (a b : ProjectRole) : Decidable (a ≤ b) := decidable_of_iff _ (le_def a b).symm

instance (a b : ProjectRole) : Decidable (a < b) := decidable_of_iff _ (lt_def a b).symm

theorem not_lt {a b : ProjectRole} : ¬ a < b ↔ b ≤ a := by
  rw [lt_def, le_def, Nat.not_lt]

theorem le_owner (role : ProjectRole) : role ≤ owner := by
  cases role <;> decide

theorem eq_owner {role : ProjectRole} (h : ¬ role < owner) : role = owner := by
  revert h
  cases role <;> decide

/-- Every role, weakest first. -/
def all : List ProjectRole := [viewer, developer, admin, owner]

def asStr : ProjectRole → String
  | viewer => "viewer"
  | developer => "developer"
  | admin => "admin"
  | owner => "owner"

def parse (raw : String) : Option ProjectRole := all.find? fun role => role.asStr = raw

theorem parse_asStr (role : ProjectRole) : parse role.asStr = some role := by
  cases role <;> decide

end ProjectRole

/-- Lifecycle states of an issue. -/
inductive IssueStatus where
  | unresolved | resolved | ignored
  deriving DecidableEq, Repr

namespace IssueStatus

def asStr : IssueStatus → String
  | unresolved => "unresolved"
  | resolved => "resolved"
  | ignored => "ignored"

def parse (raw : String) : Option IssueStatus :=
  if raw = "unresolved" then some unresolved
  else if raw = "resolved" then some resolved
  else if raw = "ignored" then some ignored
  else none

@[simp] theorem parse_asStr (status : IssueStatus) : parse status.asStr = some status := by
  cases status <;> decide

end IssueStatus

/-- A sequence of fallible steps succeeds only through each of them. -/
theorem Except.bind_ok {ε α β : Type} {x : Except ε α} {f : α → Except ε β} {b : β}
    (h : (x >>= f) = .ok b) : ∃ a, x = .ok a ∧ f a = .ok b := by
  cases x with
  | error e => cases h
  | ok a => exact ⟨a, rfl, h⟩

/-- It fails at one of them. -/
theorem Except.bind_error {ε α β : Type} {x : Except ε α} {f : α → Except ε β} {e : ε}
    (h : (x >>= f) = .error e) : x = .error e ∨ ∃ a, x = .ok a ∧ f a = .error e := by
  cases x with
  | error e' =>
    cases h
    exact .inl rfl
  | ok a => exact .inr ⟨a, rfl, h⟩

/-- Failures of a statement that the schema or the row mapping reports. -/
inductive DbError where
  | rowNotFound
  | unique (index : String)
  | foreignKey (table : String)
  | decode (column : String)
  deriving DecidableEq, Repr

/-- The application error type shared by the HTML and JSON surfaces. -/
inductive AppError where
  | config (message : String)
  | unauthorized
  | forbidden
  | notFound
  | unsupportedMediaType
  | badRequest (message : String)
  | conflict (message : String)
  | eventConflict (eventId : String)
  | payloadTooLarge (message : String)
  | unprocessable (field : Option String) (message : String)
  | database (error : DbError)
  deriving DecidableEq, Repr

/-- HTTP status the error maps to. -/
def AppError.status : AppError → Nat
  | .unauthorized => 401
  | .forbidden => 403
  | .notFound => 404
  | .unsupportedMediaType => 415
  | .badRequest _ => 400
  | .conflict _ => 409
  | .eventConflict _ => 409
  | .payloadTooLarge _ => 413
  | .unprocessable _ _ => 422
  | .config _ => 500
  | .database _ => 500

end Zbierak
