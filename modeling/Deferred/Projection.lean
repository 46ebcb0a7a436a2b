import Deferred.Search

/-! Handlers of a finished run. A handler answers with anything that can be projected: a ready
value, a suspended one, or another action, whose result is then the answer. Values of the basic
types are ready as they are. Handlers are not contained: the caller gets their panics. -/

namespace Deferred

variable {σ α β ρ : Type}

/-- The answers `β` that project to a value of type `ρ`. Projecting may call an action; what it
hands back is awaited. -/
class Projects (σ β : Type) (ρ : outParam Type) where
  project : β → Code σ (Future σ ρ)

/-- A value of any type as a ready answer. -/
structure Ready (α : Type) where
  value : α
deriving DecidableEq

def Ready.debug (render : α → String) (ready : Ready α) : String :=
  "Pure(" ++ render ready.value ++ ")"

/-- A future as an answer. -/
structure Suspended (σ α : Type) where
  future : Future σ α

instance : Projects σ (Ready α) α := ⟨fun ready => pure (pure ready.value)⟩

instance : Projects σ (Suspended σ α) α := ⟨fun suspended => pure suspended.future⟩

instance : Projects σ (Action σ ρ) ρ := ⟨fun action => action.call⟩

/-- A floating-point number by its bits, so that no two of them are confused. -/
structure Binary32 where
  bits : UInt32
deriving DecidableEq

structure Binary64 where
  bits : UInt64
deriving DecidableEq

/-- The basic types, whose values are ready as they are. -/
class Plain (α : Type) : Prop

instance : Plain Unit where
instance : Plain Bool where
instance : Plain Char where
instance : Plain String where
instance : Plain Int8 where
instance : Plain Int16 where
instance : Plain Int32 where
instance : Plain Int64 where
instance : Plain Int where
instance : Plain UInt8 where
instance : Plain UInt16 where
instance : Plain UInt32 where
instance : Plain UInt64 where
instance : Plain Nat where
instance : Plain Binary32 where
instance : Plain Binary64 where

instance [Plain α] : Projects σ α α := ⟨fun value => pure (pure value)⟩

/-- Both phases of an answer. -/
def projected [Projects σ β ρ] (answer : Code σ β) : Future σ ρ := do
  let answer ← answer
  let future ← (Projects.project answer : Code σ (Future σ ρ))
  future

section
variable {β₁ β₂ β₃ : Type}

def Attempt.handle [Projects σ β₁ ρ] [Projects σ β₂ ρ] (attempt : Attempt σ α)
    (onSuccess : α → Code σ β₁) (onFailure : Error → Code σ β₂) : Future σ ρ := do
  match ← attempt.awaited with
  | .success value => projected (onSuccess value)
  | .failure error => projected (onFailure error)

def Search.handle [Projects σ β₁ ρ] [Projects σ β₂ ρ] [Projects σ β₃ ρ] (search : Search σ α)
    (onFound : α → Code σ β₁) (onAbsent : Unit → Code σ β₂) (onFailed : Error → Code σ β₃) :
    Future σ ρ := do
  match ← search.awaited with
  | .found value => projected (onFound value)
  | .absent => projected (onAbsent ())
  | .failed error => projected (onFailed error)

end

/-- Folds a value into the state given; any other result leaves that state as it is. -/
def Attempt.foldInto (attempt : Attempt σ α) (start : β) (f : β → α → Code σ β) : Future σ β := do
  match ← attempt.awaited with
  | .success value => f start value
  | .failure _ => return start

def Search.foldInto (search : Search σ α) (start : β) (f : β → α → Code σ β) : Future σ β := do
  match ← search.awaited with
  | .found value => f start value
  | _ => return start

def Attempt.valueD (attempt : Attempt σ α) (default : α) : Future σ α := do
  return (← attempt.awaited).getD default

def Attempt.valueOr (attempt : Attempt σ α) (substitute : Error → Code σ α) : Future σ α := do
  match ← attempt.awaited with
  | .success value => return value
  | .failure error => substitute error

def Search.valueD (search : Search σ α) (default : α) : Future σ α := do
  return (← search.awaited).getD default

end Deferred
