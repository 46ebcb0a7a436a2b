import Deferred.Error

/-! The verdict on one run of a fallible computation: a success with its value or a failure with
its error. The operations on the value or the error come twice: for functions, and for functions
with effects of their own. -/

namespace Deferred

inductive Verdict (α : Type) where
  | success (value : α)
  | failure (error : Error)
deriving DecidableEq

/-- Results of which some are failures. -/
class HasFailure (ρ : Type) where
  isFailure : ρ → Bool

namespace Verdict

variable {α β : Type}

def isSuccess : Verdict α → Bool
  | success _ => true
  | failure _ => false

def isFailure : Verdict α → Bool
  | success _ => false
  | failure _ => true

instance : HasFailure (Verdict α) := ⟨isFailure⟩

instance [BEq α] : BEq (Verdict α) where
  beq
    | success a, success b => a == b
    | failure e, failure f => e == f
    | _, _ => false

/-- Exactly one of the two handlers is applied. -/
def handle (onSuccess : α → β) (onFailure : Error → β) : Verdict α → β
  | success value => onSuccess value
  | failure error => onFailure error

def map (f : α → β) : Verdict α → Verdict β
  | success value => success (f value)
  | failure error => failure error

def mapError (f : Error → Error) : Verdict α → Verdict α
  | success value => success value
  | failure error => failure (f error)

def bind (verdict : Verdict α) (next : α → Verdict β) : Verdict β :=
  match verdict with
  | success value => next value
  | failure error => failure error

section
variable {m : Type → Type} [Monad m]

def mapM (f : α → m β) : Verdict α → m (Verdict β)
  | success value => do return success (← f value)
  | failure error => return failure error

def mapErrorM (f : Error → m Error) : Verdict α → m (Verdict α)
  | success value => return success value
  | failure error => do return failure (← f error)

def bindM (verdict : Verdict α) (next : α → m (Verdict β)) : m (Verdict β) :=
  match verdict with
  | success value => next value
  | failure error => return failure error

def recoverM (verdict : Verdict α) (substitute : Error → m α) : m α :=
  match verdict with
  | success value => return value
  | failure error => substitute error

end

def getD (verdict : Verdict α) (default : α) : α :=
  match verdict with
  | success value => value
  | failure _ => default

def recover (verdict : Verdict α) (substitute : Error → α) : α :=
  match verdict with
  | success value => value
  | failure error => substitute error

def toOption : Verdict α → Option α
  | success value => some value
  | failure _ => none

def error? : Verdict α → Option Error
  | success _ => none
  | failure error => some error

def ofExcept : Except Error α → Verdict α
  | .ok value => success value
  | .error error => failure error

def toExcept : Verdict α → Except Error α
  | success value => .ok value
  | failure error => .error error

def debug (render : α → String) : Verdict α → String
  | success value => "Success(" ++ render value ++ ")"
  | failure error => "Failure(" ++ error.debug ++ ")"

end Verdict
end Deferred
