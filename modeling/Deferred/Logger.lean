import Deferred.Code

/-! The logger of a program, which gets every error that is recorded. It can be installed once;
the first one stays. Until then errors are recorded nowhere. -/

namespace Deferred

abbrev Logger (σ : Type) : Type := Error → σ → σ

namespace Logger

variable {σ : Type}

def silent : Logger σ := fun _ state => state

/-- Passes errors on as diagnostic events. -/
def tracing [Host σ] : Logger σ := fun error => Host.trace (.computationFailed error)

end Logger

inductive SetupError where
  | loggerAlreadySet
deriving DecidableEq

def SetupError.text : SetupError → String
  | loggerAlreadySet => "error logger has already been set"

structure Registry (σ : Type) where
  installed : Option (Logger σ)

namespace Registry

variable {σ : Type}

def empty : Registry σ := ⟨none⟩

def install (registry : Registry σ) (logger : Logger σ) : Except SetupError (Registry σ) :=
  match registry.installed with
  | none => .ok ⟨some logger⟩
  | some _ => .error .loggerAlreadySet

def active (registry : Registry σ) : Logger σ :=
  registry.installed.getD .silent

end Registry
end Deferred
