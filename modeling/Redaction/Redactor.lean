import Redaction.Json.Basic
import Redaction.Text.Quoted

/-!
# Redactors

A redactor gives a value its replacement. It may fail with an error or panic; asking for its name
may panic too.
-/

namespace Redaction

/-- Why a redactor has no replacement for a value. -/
inductive RedactError
  /-- Values of this type cannot be masked. -/
  | unsupportedShape (typeName : String)
  /-- The element with this index is no pair. -/
  | malformedPair (index : Nat)
  /-- A piece of a cookie header has no equals sign. -/
  | malformedCookie (segment : String)
  | panicked (message : String)
  | custom (text : String)
  deriving DecidableEq, Repr

def RedactError.message : RedactError → String
  | unsupportedShape typeName => s!"cannot mask a value of type {typeName}"
  | malformedPair index => s!"element {index} is not a [name, value] pair"
  | malformedCookie segment => s!"cookie segment '{segment}' has no '='"
  | panicked message => s!"redactor panicked: {message}"
  | custom text => text

/-- A panic, with its text if it carries one. -/
structure Panic where
  text? : Option String
  deriving DecidableEq, Repr

def Panic.message (p : Panic) : String := p.text?.getD "non-string panic payload"

/-- What a redactor does with a value. -/
inductive Reply
  | value (replacement : Json)
  | error (e : RedactError)
  | panic (p : Panic)

structure Redactor where
  name : Except Panic String
  redact : Json → Reply

namespace Redactor

/-- A redactor with a name that can be asked for. -/
def named (name : String) (redact : Json → Except RedactError Json) : Redactor :=
  ⟨.ok name, fun v => match redact v with
    | .ok w => .value w
    | .error e => .error e⟩

/-- The replacement or the failure; a panic is one kind of failure. -/
def answer (r : Redactor) (value : Json) : Except RedactError Json :=
  match r.redact value with
  | .value w => .ok w
  | .error e => .error e
  | .panic p => .error (.panicked p.message)

/-- A redactor that is made from a function, in words. -/
def describeFunction (name : String) : String :=
  "FnRedactor \x7b name: " ++ Text.quoted name ++ " \x7d"

end Redactor

end Redaction
