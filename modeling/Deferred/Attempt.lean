import Deferred.Action
import Deferred.Future.Concurrent

/-! Attempts: actions that end in a verdict. No attempt built here lets a panic of the user's code
through: it is contained where it happens, recorded once and turned into a failure. Values and
failures that are given as such are never recorded. -/

namespace Deferred

abbrev Attempt (σ α : Type) : Type := Action σ (Verdict α)

namespace Attempt

variable {σ α β γ κ ε : Type}

def ofVerdict (verdict : Verdict α) : Attempt σ α :=
  .lazily (pure verdict)

def success (value : α) : Attempt σ α :=
  ofVerdict (.success value)

def failure (error : Error) : Attempt σ α :=
  ofVerdict (.failure error)

/-- An action of the user's that may return an error. The code that builds the future runs in the
call; the error that the future returns is recorded. -/
def new [Host σ] [IsError ε] (build : Code σ (Future σ (Except ε α))) : Attempt σ α where
  call := do
    match ← contain build with
    | .error error => return pure (.failure error)
    | .ok future =>
        return do
          match ← future.contained with
          | .ok (.ok value) => return .success value
          | .ok (.error reason) => return .failure (← Future.record (Error.new reason))
          | .error error => return .failure error

/-- An action of the user's that can only fail by a panic. -/
def lift [Host σ] (build : Code σ (Future σ α)) : Attempt σ α where
  call := do
    match ← contain build with
    | .error error => return pure (.failure error)
    | .ok future => return Verdict.ofExcept <$> future.contained

def map [Host σ] (attempt : Attempt σ α) (f : α → Code σ β) : Attempt σ β :=
  attempt.andThen fun
    | .success value => do return .ofExcept (← contain (f value))
    | .failure error => return .failure error

/-- A panic of the function takes the place of the error it was given. -/
def mapError [Host σ] (attempt : Attempt σ α) (f : Error → Code σ Error) : Attempt σ α :=
  attempt.andThen fun
    | .success value => return .success value
    | .failure error => do
        match ← contain (f error) with
        | .ok mapped => return .failure mapped
        | .error panic => return .failure panic

def bind [Host σ] (attempt : Attempt σ α) (next : α → Code σ (Attempt σ β)) : Attempt σ β :=
  attempt.andThen fun
    | .success value => do
        match ← contain (next value) with
        | .ok following => following.awaited
        | .error panic => return .failure panic
    | .failure error => return .failure error

/-- Turns either verdict into a value of its own. -/
def resolve [Host σ] (attempt : Attempt σ α) (onSuccess : α → Code σ β)
    (onFailure : Error → Code σ β) : Attempt σ β :=
  attempt.andThen fun
    | .success value => do return .ofExcept (← contain (onSuccess value))
    | .failure error => do return .ofExcept (← contain (onFailure error))

/-- A value that is not accepted is the failure `bottom`. -/
def filter [Host σ] (attempt : Attempt σ α) (accepts : α → Code σ Bool) : Attempt σ α :=
  attempt.andThen fun
    | .success value => do
        match ← contain (accepts value) with
        | .ok true => return .success value
        | .ok false => return .failure .bottom
        | .error panic => return .failure panic
    | .failure error => return .failure error

def orElse (attempt other : Attempt σ α) : Attempt σ α :=
  attempt.andThen fun
    | .success value => return .success value
    | .failure _ => other.awaited

/-- Compares the keys of two values. Code of the user's makes the keys, the left one first, and also
compares them. -/
def keysAgree (keyLeft : α → Code σ κ) (keyRight : β → Code σ κ) (sameKey : κ → κ → Code σ Bool)
    (a : α) (b : β) : Code σ Bool := do
  sameKey (← keyLeft a) (← keyRight b)

/-- Joins two values with equal keys. A failure of the left side goes before one of the right. -/
def joinVerdicts [Host σ] (keyLeft : α → Code σ κ) (keyRight : β → Code σ κ)
    (sameKey : κ → κ → Code σ Bool) (combine : α → β → Code σ γ) :
    Verdict α → Verdict β → Future σ (Verdict γ)
  | .success a, .success b => do
      match ← contain (keysAgree keyLeft keyRight sameKey a b) with
      | .ok true => return .ofExcept (← contain (combine a b))
      | .ok false => return .failure .invalidJoin
      | .error panic => return .failure panic
  | .failure error, _ => return .failure error
  | _, .failure error => return .failure error

/-- Runs both sides at the same time. The call calls both, the left one first. -/
def join [Host σ] (left : Attempt σ α) (right : Attempt σ β) (keyLeft : α → Code σ κ)
    (keyRight : β → Code σ κ) (sameKey : κ → κ → Code σ Bool) (combine : α → β → Code σ γ) :
    Attempt σ γ where
  call := do
    let first ← left.call
    let second ← right.call
    return do
      let (a, b) ← Future.both first second
      joinVerdicts keyLeft keyRight sameKey combine a b

end Attempt
end Deferred
