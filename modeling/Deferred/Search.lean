import Deferred.Attempt

/-! Searches: actions that end in a finding. They compose as attempts do, with absence as a third
way to end: it stops a pipeline as a failure does, but is never recorded or retried and is cached
like a value. -/

namespace Deferred

abbrev Search (σ α : Type) : Type := Action σ (Finding α)

namespace Search

variable {σ α β γ κ ε : Type}

def ofFinding (finding : Finding α) : Search σ α :=
  .lazily (pure finding)

def found (value : α) : Search σ α :=
  ofFinding (.found value)

def absent : Search σ α :=
  ofFinding .absent

def failed (error : Error) : Search σ α :=
  ofFinding (.failed error)

/-- A contained answer as a finding. -/
def ofContained : Except Error α → Finding α
  | .ok value => .found value
  | .error panic => .failed panic

def new [Host σ] [IsError ε] (build : Code σ (Future σ (Except ε (Option α)))) : Search σ α where
  call := do
    match ← contain build with
    | .error error => return pure (.failed error)
    | .ok future =>
        return do
          match ← future.contained with
          | .ok (.ok value?) => return .ofOption value?
          | .ok (.error reason) => return .failed (← Future.record (Error.new reason))
          | .error error => return .failed error

def lift [Host σ] (build : Code σ (Future σ (Option α))) : Search σ α where
  call := do
    match ← contain build with
    | .error error => return pure (.failed error)
    | .ok future => return Finding.ofExcept <$> future.contained

def map [Host σ] (search : Search σ α) (f : α → Code σ β) : Search σ β :=
  search.andThen fun
    | .found value => do return ofContained (← contain (f value))
    | .absent => return .absent
    | .failed error => return .failed error

def bind [Host σ] (search : Search σ α) (next : α → Code σ (Search σ β)) : Search σ β :=
  search.andThen fun
    | .found value => do
        match ← contain (next value) with
        | .ok following => following.awaited
        | .error panic => return .failed panic
    | .absent => return .absent
    | .failed error => return .failed error

/-- Turns each of the three findings into a value of its own. -/
def resolve [Host σ] (search : Search σ α) (onFound : α → Code σ β) (onAbsent : Unit → Code σ β)
    (onFailed : Error → Code σ β) : Attempt σ β :=
  search.andThen fun
    | .found value => do return .ofExcept (← contain (onFound value))
    | .absent => do return .ofExcept (← contain (onAbsent ()))
    | .failed error => do return .ofExcept (← contain (onFailed error))

/-- A value that is not accepted is absent. -/
def filter [Host σ] (search : Search σ α) (accepts : α → Code σ Bool) : Search σ α :=
  search.andThen fun
    | .found value => do
        match ← contain (accepts value) with
        | .ok true => return .found value
        | .ok false => return .absent
        | .error panic => return .failed panic
    | .absent => return .absent
    | .failed error => return .failed error

/-- Looks on where nothing was found, for whatever reason. -/
def orElse (search other : Search σ α) : Search σ α :=
  search.andThen fun
    | .found value => return .found value
    | .absent => other.awaited
    | .failed _ => other.awaited

/-- A failure on either side goes before absence on either side. -/
def joinFindings [Host σ] (keyLeft : α → Code σ κ) (keyRight : β → Code σ κ)
    (sameKey : κ → κ → Code σ Bool) (combine : α → β → Code σ γ) :
    Finding α → Finding β → Future σ (Finding γ)
  | .found a, .found b => do
      match ← contain (Attempt.keysAgree keyLeft keyRight sameKey a b) with
      | .ok true => return ofContained (← contain (combine a b))
      | .ok false => return .failed .invalidJoin
      | .error panic => return .failed panic
  | .failed error, _ => return .failed error
  | _, .failed error => return .failed error
  | _, _ => return .absent

def join [Host σ] (left : Search σ α) (right : Search σ β) (keyLeft : α → Code σ κ)
    (keyRight : β → Code σ κ) (sameKey : κ → κ → Code σ Bool) (combine : α → β → Code σ γ) :
    Search σ γ where
  call := do
    let first ← left.call
    let second ← right.call
    return do
      let (a, b) ← Future.both first second
      joinFindings keyLeft keyRight sameKey combine a b

def narrow (search : Search σ α) : Attempt σ α :=
  search.andThen fun finding => return finding.narrow

end Search

def Attempt.widen {σ α : Type} (attempt : Attempt σ α) : Search σ α :=
  attempt.andThen fun verdict => return verdict.widen

end Deferred
