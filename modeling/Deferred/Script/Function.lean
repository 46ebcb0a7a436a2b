import Deferred.Script.World

/-! The functions that scripts hand to actions and feeds. They are code: they may panic, leave
notes in the journal and cancel tokens. Arithmetic is that of 64-bit words. -/

namespace Deferred.Script

def notAnInteger {α : Type} (value : Value) : Code World α :=
  Code.panic (.owned ("not an integer: " ++ value.compact))

def notAList {α : Type} (value : Value) : Code World α :=
  Code.panic (.owned ("not a list: " ++ value.compact))

def integer : Value → Code World Int64
  | .int value => return value
  | value => notAnInteger value

inductive Test where
  | always
  | never
  | greater (bound : Int64)
  | less (bound : Int64)
  | even
  | equals (value : Value)
  | opposite (test : Test)
  | panic (payload : Payload)
  | noting (tag : String) (test : Test)

def Test.run : Test → Value → Code World Bool
  | always, _ => return true
  | never, _ => return false
  | greater bound, value => do return (← integer value) > bound
  | less bound, value => do return (← integer value) < bound
  | even, value => do return (← integer value) % 2 == 0
  | equals other, value => return value == other
  | opposite test, value => do return !(← test.run value)
  | panic payload, _ => Code.panic payload
  | noting tag test, value => do
      mark (.note tag value)
      test.run value

inductive Transform where
  | keep
  | add (number : Int64)
  | multiply (number : Int64)
  | divide (number : Int64)
  | constant (value : Value)
  | double
  | tagged (tag : Value)
  | write
  | join (text : String)
  | length
  | sum
  | panic (payload : Payload)
  | note (tag : String)
  | cancel (token : String)
  | choose (test : Test) (yes no : Transform)
  | each (steps : List Transform)

/-- Division drops the fraction, and panics where the quotient is not a word. -/
def quotient (a b : Int64) : Code World Int64 :=
  if b = 0 then Code.panic (.fixed "attempt to divide by zero")
  else if a = Int64.minValue ∧ b = -1 then
    Code.panic (.fixed "attempt to divide with overflow")
  else return a / b

def total (items : List Value) : Code World Int64 :=
  items.foldlM (fun sum item => do return sum + (← integer item)) 0

def lengthOf : Value → Code World Nat
  | .text value => return value.length
  | .list items => return items.length
  | value => Code.panic (.owned ("no length: " ++ value.compact))

mutual

def Transform.run : Transform → Value → Code World Value
  | .keep, value => return value
  | .add number, value => do return .int ((← integer value) + number)
  | .multiply number, value => do return .int ((← integer value) * number)
  | .divide number, value => do return .int (← quotient (← integer value) number)
  | .constant other, _ => return other
  | .double, value => return .list [value, value]
  | .tagged tag, value => return .list [tag, value]
  | .write, value => return .text value.compact
  | .join tail, value =>
      match value with
      | .text head => return .text (head ++ tail)
      | _ => Code.panic (.owned ("not a string: " ++ value.compact))
  | .length, value => do return .ofNat (← lengthOf value)
  | .sum, value =>
      match value with
      | .list items => do return .int (← total items)
      | _ => notAList value
  | .panic payload, _ => Code.panic payload
  | .note tag, value => do
      mark (.note tag value)
      return value
  | .cancel token, value => do
      (← World.cancellation token).cancel
      return value
  | .choose test yes no, value => do
      if ← test.run value then yes.run value else no.run value
  | .each steps, value => runAll steps value

def runAll : List Transform → Value → Code World Value
  | [], value => return value
  | step :: steps, value => do runAll steps (← step.run value)

end

inductive Combine where
  | pair
  | left
  | right
  | add
  | multiply
  | push
  | panic (payload : Payload)
  | noting (tag : String) (combine : Combine)

def Combine.run : Combine → Value → Value → Code World Value
  | pair, a, b => return .list [a, b]
  | left, a, _ => return a
  | right, _, b => return b
  | add, a, b => do
      let x ← integer a
      let y ← integer b
      return .int (x + y)
  | multiply, a, b => do
      let x ← integer a
      let y ← integer b
      return .int (x * y)
  | push, a, b =>
      match a with
      | .list items => return .list (items ++ [b])
      | _ => notAList a
  | panic payload, _, _ => Code.panic payload
  | noting tag combine, a, b => do
      mark (.note tag (.list [a, b]))
      combine.run a b

inductive Amend where
  | keep
  | headed (text : String)
  | bare
  | constant (error : Error)
  | rewrap
  | panic (payload : Payload)
  | noting (tag : String) (amend : Amend)

def Amend.run : Amend → Error → Code World Error
  | keep, error => return error
  | headed text, error => return .message (text ++ error.text)
  | bare, error => return .message error.bareText
  | constant other, _ => return other
  | rewrap, error => return .new error
  | panic payload, _ => Code.panic payload
  | noting tag amend, error => do
      mark (.note tag (.ofError error))
      amend.run error

inductive Describe where
  | text
  | bareText
  | kind
  | length
  | whole
  | constant (value : Value)
  | panic (payload : Payload)
  | noting (tag : String) (describe : Describe)

def Describe.run : Describe → Error → Code World Value
  | text, error => return .text error.text
  | bareText, error => return .text error.bareText
  | kind, error => return .text (Value.kindName error.kind)
  | length, error => return .ofNat error.text.length
  | whole, error => return .ofError error
  | constant value, _ => return value
  | panic payload, _ => Code.panic payload
  | noting tag describe, error => do
      mark (.note tag (.ofError error))
      describe.run error

end Deferred.Script
