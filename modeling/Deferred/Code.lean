import Deferred.Event

/-! Synchronous code of the user: it acts on the state of the program and ends with a value or
with a panic. The host of a program is what the library needs of that state: a clock, an allowance
for each turn, a record of captured errors and a trace of diagnostic events. -/

namespace Deferred

/-- The services of the surrounding program. The clock counts milliseconds. The allowance is the
number of waits that may still end in this turn: a task that has spent it lets the others go first.
Neither the record of errors nor the trace of events touches the clock or the allowance. -/
class Host (σ : Type) where
  now : σ → Nat
  allowance : σ → Nat
  elapse : Nat → σ → σ
  allow : Nat → σ → σ
  record : Error → σ → σ
  trace : Event → σ → σ
  now_elapse : ∀ time state, now (elapse time state) = time
  now_allow : ∀ count state, now (allow count state) = now state
  now_record : ∀ error state, now (record error state) = now state
  now_trace : ∀ event state, now (trace event state) = now state
  allowance_elapse : ∀ time state, allowance (elapse time state) = allowance state
  allowance_allow : ∀ count state, allowance (allow count state) = count
  allowance_record : ∀ error state, allowance (record error state) = allowance state
  allowance_trace : ∀ event state, allowance (trace event state) = allowance state

namespace Host

variable {σ : Type} [Host σ]

/-- The number of waits that may end in one turn. -/
def turn : Nat := 128

def refill (state : σ) : σ := allow turn state

def spend (state : σ) : σ := allow (allowance state - 1) state

end Host

/-- Code that may panic. What it did before the panic stays done. -/
abbrev Code (σ α : Type) : Type := ExceptT Payload (StateM σ) α

variable {σ α : Type}

def Code.panic (payload : Payload) : Code σ α :=
  throw payload

/-- Runs code inside the boundary: a panic becomes an error, which is recorded once. -/
def contain [Host σ] (code : Code σ α) : StateM σ (Except Error α) :=
  fun state =>
    match code state with
    | (.ok value, after) => (.ok value, after)
    | (.error payload, after) =>
        let error := Error.ofPanic payload
        (.error error, Host.record error after)

/-- A piece of state of type `ρ` inside the state of the program. -/
structure Place (σ ρ : Type) where
  get : σ → ρ
  set : ρ → σ → σ
  get_set : ∀ value state, get (set value state) = value

namespace Place

variable {ρ : Type}

def modify (place : Place σ ρ) (f : ρ → ρ) (state : σ) : σ :=
  place.set (f (place.get state)) state

/-- Runs one step of the piece of state, with its answer. -/
def step (place : Place σ ρ) (f : ρ → α × ρ) : StateM σ α :=
  fun state =>
    let (answer, value) := f (place.get state)
    (answer, place.set value state)

end Place

/-- Hands out a place of its own for each value it is given. -/
structure Arena (σ ρ : Type) where
  fresh : ρ → StateM σ (Place σ ρ)

end Deferred
