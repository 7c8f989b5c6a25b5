import Zbierak.Lib.Text

/-!
# JSON trees

The tree a JSON document parses to. An object keeps its entries in the order
of their keys, each key once, as the map behind it does.
-/
namespace Zbierak

abbrev Bytes := List UInt8

inductive Number where
  | int (n : Int)
  | float (text : String)
  deriving DecidableEq, Repr

inductive Value where
  | null
  | bool (b : Bool)
  | number (n : Number)
  | string (text : String)
  | array (items : List Value)
  | object (fields : List (String × Value))
  deriving Repr

namespace Value

def lookup {α : Type} (key : String) : List (String × α) → Option α
  | [] => none
  | (k, v) :: rest => if k = key then some v else lookup key rest

/-- Member of an object; anything else has no members. -/
def get (v : Value) (key : String) : Option Value :=
  match v with
  | .object fields => lookup key fields
  | _ => none

def asStr : Value → Option String
  | .string text => some text
  | _ => none

def asBool : Value → Option Bool
  | .bool b => some b
  | _ => none

def asArray : Value → Option (List Value)
  | .array items => some items
  | _ => none

def asU64 : Value → Option Nat
  | .number (.int n) => if 0 ≤ n then some n.toNat else none
  | _ => none

end Value

end Zbierak
