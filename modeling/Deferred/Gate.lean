import Deferred.Verdict

/-! A gate lets one visitor through at a time until a value is stored behind it; from then on
everybody gets the value. Visitors that find it taken queue up, and whoever leaves without storing
anything makes room for the one that has waited longest, also if that one has not noticed yet. -/

namespace Deferred

/-- Visitors are known by tickets, numbered in the order of their arrival. -/
structure Gate (ρ : Type) where
  value : Option ρ
  holder : Option Nat
  queue : List Nat
  issued : Nat
deriving DecidableEq

/-- What a visitor meets on arrival. -/
inductive Arrival (ρ : Type) where
  | settled (value : ρ)
  | admitted (ticket : Nat)
  | queued (ticket : Nat)
deriving DecidableEq

namespace Gate

variable {ρ : Type}

def fresh : Gate ρ := ⟨none, none, [], 0⟩

instance : Inhabited (Gate ρ) := ⟨fresh⟩

def arrive (gate : Gate ρ) : Arrival ρ × Gate ρ :=
  match gate.value, gate.holder with
  | some value, _ => (.settled value, gate)
  | none, none =>
      (.admitted gate.issued,
        { gate with holder := some gate.issued, issued := gate.issued + 1 })
  | none, some _ =>
      (.queued gate.issued,
        { gate with queue := gate.queue ++ [gate.issued], issued := gate.issued + 1 })

/-- A visitor in the queue goes on when it has been given the way or there is a value. -/
def calls (gate : Gate ρ) (ticket : Nat) : Bool :=
  gate.value.isSome || gate.holder == some ticket

/-- Leaving from inside hands the way to the front of the queue; leaving the queue only gives up
the place in it. -/
def leave (ticket : Nat) (gate : Gate ρ) : Gate ρ :=
  if gate.holder = some ticket then
    { gate with holder := gate.queue.head?, queue := gate.queue.tail }
  else
    { gate with queue := gate.queue.filter (· ≠ ticket) }

def store (value : ρ) (gate : Gate ρ) : Gate ρ :=
  { gate with value := some value, holder := none, queue := [] }

end Gate
end Deferred
