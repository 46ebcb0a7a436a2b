import Deferred.Future

/-! Cooperative cancellation. A flag can be raised and stays raised; every copy of a cancellation
refers to one flag. Whoever waits for it notes the version it has seen and then looks at the flag,
so that a flag raised before, in between or afterwards is never missed. -/

namespace Deferred

/-- The version counts the times that the flag was raised. -/
structure Flag where
  raised : Bool
  version : Nat
deriving DecidableEq

namespace Flag

def lowered : Flag := ⟨false, 0⟩

instance : Inhabited Flag := ⟨lowered⟩

def raise (flag : Flag) : Flag := ⟨true, flag.version + 1⟩

/-- Whether the flag calls somebody who has seen the given version and waits for it. -/
def calls (flag : Flag) (seen : Nat) : Bool :=
  flag.version != seen && flag.raised

end Flag

structure Cancellation (σ : Type) where
  flag : Place σ Flag

variable {σ : Type}

namespace Cancellation

def new (arena : Arena σ Flag) : StateM σ (Cancellation σ) := do
  return ⟨← arena.fresh .lowered⟩

def cancel (cancellation : Cancellation σ) : StateM σ Unit :=
  cancellation.flag.step fun flag => ((), flag.raise)

def isCancelled (cancellation : Cancellation σ) (state : σ) : Bool :=
  (cancellation.flag.get state).raised

def wait (cancellation : Cancellation σ) (seen : Nat) : Wait σ :=
  ⟨none, fun state => (cancellation.flag.get state).calls seen, id⟩

def cancelled [Host σ] (cancellation : Cancellation σ) : Future σ Unit := do
  Future.afford
  fun state =>
    let flag := cancellation.flag.get state
    if flag.raised then Future.spend state
    else .waiting (cancellation.wait flag.version) Future.pay state

end Cancellation

/-- The surroundings in which merged feeds run. -/
structure Scope (σ : Type) where
  cancellation : Cancellation σ

namespace Scope

/-- Surroundings of their own, which nobody else can cancel. -/
def new (arena : Arena σ Flag) : StateM σ (Scope σ) := do
  return ⟨← Cancellation.new arena⟩

def cancel (scope : Scope σ) : StateM σ Unit :=
  scope.cancellation.cancel

end Scope
end Deferred
