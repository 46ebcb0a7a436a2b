import Deferred.Text.Quoted

/-! The error carried by failed computations. An error is a user's own error, a plain message, a
captured panic, or one of the two failures the library itself decides on. Two errors are equal
when they are of the same kind and read the same. -/

namespace Deferred
open Text

/-- An error of the user's own: the name of its type, its text and its diagnostic form. -/
structure Cause where
  origin : String
  text : String
  debug : String
deriving DecidableEq

inductive Error where
  | failed (cause : Cause)
  | message (text : String)
  | panicked (text : String)
  | invalidJoin
  | bottom
deriving DecidableEq

inductive Error.Kind where
  | failed | message | panicked | invalidJoin | bottom
deriving DecidableEq

namespace Error

def kind : Error → Kind
  | failed _ => .failed
  | message _ => .message
  | panicked _ => .panicked
  | invalidJoin => .invalidJoin
  | bottom => .bottom

/-- The text of the error without any mention of its kind. -/
def bareText : Error → String
  | failed cause => cause.text
  | message text => text
  | panicked text => text
  | invalidJoin => "invalid join: keys of the joined values do not match"
  | bottom => "bottom: no value available"

/-- The text shown to a reader: a captured panic says that it is one. -/
def text : Error → String
  | panicked text => "computation panicked: " ++ text
  | error => error.bareText

def isPanic : Error → Bool
  | panicked _ => true
  | _ => false

/-- The user's own error, if this is one. -/
def cause? : Error → Option Cause
  | failed cause => some cause
  | _ => none

def debug : Error → String
  | failed cause => "Failed(" ++ cause.debug ++ ")"
  | message text => "Message(" ++ quoted text ++ ")"
  | panicked text => "Panicked(" ++ quoted text ++ ")"
  | invalidJoin => "InvalidJoin"
  | bottom => "Bottom"

instance : BEq Error where
  beq a b := a.kind == b.kind && a.text == b.text

end Error

/-- Types whose values can be the reason of a failure. -/
class IsError (ε : Type) where
  toError : ε → Error

/-- An error given as a reason stays as it is and is never wrapped. -/
instance : IsError Error := ⟨id⟩

instance : IsError Cause := ⟨Error.failed⟩

def Error.new {ε : Type} [IsError ε] (reason : ε) : Error :=
  IsError.toError reason

/-- What a panic carries. Only the two kinds of text can be read back. -/
inductive Payload where
  | owned (text : String)
  | fixed (text : String)
  | number (value : Int)
  | error (error : Error)
deriving DecidableEq

def Payload.text? : Payload → Option String
  | owned text => some text
  | fixed text => some text
  | _ => none

def Error.ofPanic (payload : Payload) : Error :=
  .panicked (payload.text?.getD "non-string panic payload")

end Deferred
