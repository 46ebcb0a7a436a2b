import Deferred.Verdict

/-! The finding of one run of a search: a value, its absence, or a failure. Absence is a result
of its own and not an error. A verdict widens to a finding without loss; a finding narrows to a
verdict where a value is required, and absence is then the failure `bottom`. -/

namespace Deferred

inductive Finding (α : Type) where
  | found (value : α)
  | absent
  | failed (error : Error)
deriving DecidableEq

variable {α β : Type}

namespace Finding

def isFound : Finding α → Bool
  | found _ => true
  | _ => false

def isAbsent : Finding α → Bool
  | absent => true
  | _ => false

def isFailure : Finding α → Bool
  | failed _ => true
  | _ => false

/-- Whether a pipeline stops here. -/
def isAbsentOrFailure (finding : Finding α) : Bool :=
  !finding.isFound

instance : HasFailure (Finding α) := ⟨isFailure⟩

instance [BEq α] : BEq (Finding α) where
  beq
    | found a, found b => a == b
    | absent, absent => true
    | failed e, failed f => e == f
    | _, _ => false

/-- Exactly one of the three handlers is applied. -/
def handle (onFound : α → β) (onAbsent : Unit → β) (onFailed : Error → β) : Finding α → β
  | found value => onFound value
  | absent => onAbsent ()
  | failed error => onFailed error

def map (f : α → β) : Finding α → Finding β
  | found value => found (f value)
  | absent => absent
  | failed error => failed error

def bind (finding : Finding α) (next : α → Finding β) : Finding β :=
  match finding with
  | found value => next value
  | absent => absent
  | failed error => failed error

section
variable {m : Type → Type} [Monad m]

def mapM (f : α → m β) : Finding α → m (Finding β)
  | found value => do return found (← f value)
  | absent => return absent
  | failed error => return failed error

def bindM (finding : Finding α) (next : α → m (Finding β)) : m (Finding β) :=
  match finding with
  | found value => next value
  | absent => return absent
  | failed error => return failed error

end

def getD (finding : Finding α) (default : α) : α :=
  match finding with
  | found value => value
  | _ => default

def toOption : Finding α → Option α
  | found value => some value
  | _ => none

def ofOption : Option α → Finding α
  | some value => found value
  | none => absent

def ofExcept : Except Error (Option α) → Finding α
  | .ok value => ofOption value
  | .error error => failed error

def toExcept : Finding α → Except Error (Option α)
  | found value => .ok (some value)
  | absent => .ok none
  | failed error => .error error

def narrow : Finding α → Verdict α
  | found value => .success value
  | absent => .failure .bottom
  | failed error => .failure error

def debug (render : α → String) : Finding α → String
  | found value => "Some(" ++ render value ++ ")"
  | absent => "None"
  | failed error => "Failure(" ++ error.debug ++ ")"

end Finding

def Verdict.widen : Verdict α → Finding α
  | success value => .found value
  | failure error => .failed error

end Deferred
