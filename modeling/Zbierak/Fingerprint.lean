import Zbierak.Crates

/-!
# Grouping fingerprints

An explicit list of components controls grouping; otherwise selected error,
message and frame fields are gathered from the event tree.
-/
namespace Zbierak.Fingerprint

open Value (lookup)

/-- Text members that take part in grouping, in the order they are read. -/
def textKeys : List String := ["exception_type", "error_type", "type", "message"]

/-- Members that are searched, in the order they are visited. -/
def nestedKeys : List String :=
  ["frames", "stack_frames", "stacktrace", "exceptions", "exception", "error"]

def textEntry (fields : List (String × Value)) (key : String) : Option String :=
  ((lookup key fields).bind Value.asStr).map fun text => s!"{key}:{text}"

/-- A member of the wrong type hides the alternative spelling. -/
def frameEntry (fields : List (String × Value)) : Option String :=
  match ((lookup "filename" fields).or (lookup "file" fields)).bind Value.asStr,
      ((lookup "function" fields).or (lookup "function_name" fields)).bind Value.asStr with
  | some file, some function => some s!"frame:{file}:{function}"
  | _, _ => none

mutual

/-- Entries gathered from a tree. Every member's entries are computed first
and the visited ones are then picked in the order of `nestedKeys`. -/
def collect : Value → List String
  | .object fields =>
    let nested := collectFields fields
    textKeys.filterMap (textEntry fields) ++
      (nestedKeys.flatMap fun key => (lookup key nested).getD []) ++
      (frameEntry fields).toList
  | .array items => collectItems items
  | .null | .bool _ | .number _ | .string _ => []

def collectItems : List Value → List String
  | [] => []
  | v :: rest => collect v ++ collectItems rest

def collectFields : List (String × Value) → List (String × List String)
  | [] => []
  | entry :: rest => collectField entry :: collectFields rest

def collectField : String × Value → String × List String
  | (key, v) => (key, collect v)

end

mutual

/-- A spelling of the whole tree that does not depend on the order of keys. -/
def canonical (env : Crates) : Value → String
  | .object fields =>
    "|".intercalate (((canonicalFields env fields).mergeSort fun a b => a.1 ≤ b.1).map
      fun entry => s!"{entry.1}:{entry.2}")
  | .array items => ",".intercalate (canonicalItems env items)
  | .null => env.valueToString .null
  | .bool b => env.valueToString (.bool b)
  | .number n => env.valueToString (.number n)
  | .string text => env.valueToString (.string text)

def canonicalItems (env : Crates) : List Value → List String
  | [] => []
  | v :: rest => canonical env v :: canonicalItems env rest

def canonicalFields (env : Crates) : List (String × Value) → List (String × String)
  | [] => []
  | entry :: rest => canonicalField env entry :: canonicalFields env rest

def canonicalField (env : Crates) : String × Value → String × String
  | (key, v) => (key, canonical env v)

end

/-- Explicit components, when the event carries a nonempty list of them. -/
def explicitParts (event : Value) : Option (List String) :=
  match (event.get "fingerprint").bind Value.asArray with
  | some (part :: parts) => some ((part :: parts).filterMap Value.asStr)
  | _ => none

def eventFingerprint (env : Crates) (event : Value) : String :=
  match explicitParts event with
  | some parts => env.blake3Hex ("explicit\n" ++ "\n".intercalate parts)
  | none =>
    let parts := collect event
    env.blake3Hex ("\n".intercalate (if parts = [] then [canonical env event] else parts))

end Zbierak.Fingerprint
