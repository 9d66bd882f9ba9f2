import Redaction.Json.Binary64

/-!
# JSON values

An object is the list of its members in order. Reading gives no key twice; `WellFormed` says so of
a value and of everything in it.
-/

namespace Redaction

/-- A number is an exact integer or a double. -/
inductive Number
  | int (value : Int)
  | double (value : Binary64)
  deriving DecidableEq, Repr, Inhabited

inductive Json
  | null
  | bool (value : Bool)
  | number (value : Number)
  | string (text : String)
  | array (items : List Json)
  | object (members : List (String × Json))
  deriving Repr, Inhabited

/-- The members of an object, in order. -/
abbrev Members := List (String × Json)

namespace Members

def keys (ms : Members) : List String := ms.map Prod.fst

/-- The value under a key. -/
def get? (key : String) : Members → Option Json
  | [] => none
  | (k, v) :: ms => if k = key then some v else get? key ms

def contains (key : String) (ms : Members) : Bool := (get? key ms).isSome

/-- The members with another value under a key that they have. -/
def set (key : String) (value : Json) : Members → Members
  | [] => []
  | (k, v) :: ms => if k = key then (k, value) :: ms else (k, v) :: set key value ms

/-- The members with a value under a key, in its old place or at the end. -/
def put (key : String) (value : Json) : Members → Members
  | [] => [(key, value)]
  | (k, v) :: ms => if k = key then (k, value) :: ms else (k, v) :: put key value ms

end Members

namespace Number

/-- Both zeros of the doubles count. -/
def isZero : Number → Bool
  | int n => n == 0
  | double x => x.magnitude.isZero

end Number

namespace Json

/-- The name of the type of a value. -/
def typeName : Json → String
  | null => "null"
  | bool _ => "bool"
  | number _ => "number"
  | string _ => "string"
  | array _ => "array"
  | object _ => "object"

/-- Null, false, zero and the empty string, array and object. -/
def isFalsy : Json → Bool
  | null => true
  | bool b => !b
  | number n => n.isZero
  | string s => s.isEmpty
  | array items => items.isEmpty
  | object members => members.isEmpty

/-- No object in the value has a key twice. -/
inductive WellFormed : Json → Prop
  | null : WellFormed null
  | bool (b : Bool) : WellFormed (bool b)
  | number (n : Number) : WellFormed (number n)
  | string (s : String) : WellFormed (string s)
  | array {items : List Json} : (∀ v ∈ items, WellFormed v) → WellFormed (array items)
  | object {members : Members} : members.keys.Nodup → (∀ m ∈ members, WellFormed m.2) →
      WellFormed (object members)

mutual

/-- The number of containers around the innermost value. -/
def depth : Json → Nat
  | array items => depthItems items + 1
  | object members => depthMembers members + 1
  | _ => 0

def depthItems : List Json → Nat
  | [] => 0
  | v :: vs => max (depth v) (depthItems vs)

def depthMembers : List (String × Json) → Nat
  | [] => 0
  | (_, v) :: ms => max (depth v) (depthMembers ms)

end

end Json

end Redaction
