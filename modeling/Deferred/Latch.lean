import Deferred.Finding

/-! A latch keeps the first result offered to it that is not a failure. Failures pass through and
leave it as it was; every later result is answered with the one that is kept. -/

namespace Deferred

structure Latch (ρ : Type) where
  value : Option ρ
deriving DecidableEq

namespace Latch

variable {ρ : Type}

def empty : Latch ρ := ⟨none⟩

instance : Inhabited (Latch ρ) := ⟨empty⟩

def isSet (latch : Latch ρ) : Bool :=
  latch.value.isSome

/-- The answer to an offered result, and the latch after it. -/
def offer [HasFailure ρ] (latch : Latch ρ) (result : ρ) : ρ × Latch ρ :=
  if HasFailure.isFailure result then (result, latch)
  else match latch.value with
    | some kept => (kept, latch)
    | none => (result, ⟨some result⟩)

end Latch
end Deferred
