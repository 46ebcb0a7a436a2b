import Deferred.Future
import Deferred.Gate
import Deferred.Latch
import Deferred.RetryPlan

/-! Actions: computations that can be run any number of times. A run has two phases. The call is
synchronous and hands back a future; everything else happens when the future is polled. What can
be said of an action whatever its results are stands here: running it after something else,
caching its first good result, and running it again while it fails. -/

namespace Deferred

structure Action (σ ρ : Type) where
  call : Code σ (Future σ ρ)

variable {σ ρ τ : Type}

namespace Action

/-- Both phases at the first poll: the call and then the future that it hands back. -/
def awaited (action : Action σ ρ) : Future σ ρ := do
  let future ← action.call
  future

/-- The call does nothing, so that the action does nothing before it is polled. -/
def lazily (future : Future σ ρ) : Action σ ρ :=
  ⟨pure future⟩

def andThen (action : Action σ ρ) (next : ρ → Future σ τ) : Action σ τ :=
  lazily do
    let result ← action.awaited
    next result

/-- Answers from the latch once it is set. Runs that start before then all run the action, and
what they answer is what the latch makes of their results. -/
def cached [HasFailure ρ] (latch : Place σ (Latch ρ)) (action : Action σ ρ) : Action σ ρ :=
  lazily do
    match ← latch.step fun held => (held.value, held) with
    | some kept => return kept
    | none =>
        let result ← action.awaited
        latch.step (·.offer result)

/-- A run inside the gate: a failure makes room for the next visitor, any other result is stored.
If the run is dropped it makes room as well. -/
def insideGate [HasFailure ρ] (gate : Place σ (Gate ρ)) (ticket : Nat) (action : Action σ ρ) :
    Future σ ρ :=
  fun state =>
    let leave := gate.modify (Gate.leave ticket)
    Poll.holding leave <| (action.awaited state).bind fun result after =>
      if HasFailure.isFailure result then .ready result (leave after)
      else .ready result (gate.modify (Gate.store result) after)

/-- Goes on in a turn that affords it. The runtime gives a visitor its place before it asks for the
allowance, so nobody gets ahead of one that is put off to the next turn. If such a visitor is
dropped it gives up its place, and passes on the way if it was given it. -/
def entered [Host σ] (gate : Place σ (Gate ρ)) (ticket : Nat) : Future σ Unit :=
  fun state => Poll.holding (gate.modify (Gate.leave ticket)) (Future.pay state)

/-- Waits until the gate calls. -/
def called [Host σ] (gate : Place σ (Gate ρ)) (ticket : Nat) : Future σ Unit :=
  fun state =>
    .waiting ⟨none, fun s => (gate.get s).calls ticket, gate.modify (Gate.leave ticket)⟩
      (entered gate ticket) state

/-- Like `cached`, but one run at a time, in the order of arrival, until one stores its result. -/
def cachedAlone [Host σ] [HasFailure ρ] (gate : Place σ (Gate ρ)) (action : Action σ ρ) :
    Action σ ρ :=
  lazily do
    match ← gate.step Gate.arrive with
    | .settled value => return value
    | .admitted ticket =>
        entered gate ticket
        action.insideGate gate ticket
    | .queued ticket =>
        called gate ticket
        match ← gate.step fun held => (held.value, held) with
        | some value => return value
        | none => action.insideGate gate ticket

/-- The runs from the given one on, with the given number of retries left. -/
def runsFrom [Host σ] [HasFailure ρ] (action : Action σ ρ) (plan : RetryPlan) :
    Nat → UInt64 → Future σ ρ
  | 0, _ => do
      let result ← action.awaited
      if HasFailure.isFailure result then
        Future.trace (.retriesExhausted plan.runs)
      return result
  | left + 1, attempt => do
      let result ← action.awaited
      if HasFailure.isFailure result then
        if let some delay := plan.waitBefore attempt.toNat then
          Future.trace (.backingOff attempt delay)
          Future.sleep delay.millis
        Future.trace (.retrying (attempt + 1) plan.runs)
        action.runsFrom plan left (attempt + 1)
      else
        return result

/-- Runs the action until it does not fail, at most as often as the plan says, and answers with
the result of the last run. -/
def retried [Host σ] [HasFailure ρ] (action : Action σ ρ) (plan : RetryPlan) : Action σ ρ :=
  lazily (action.runsFrom plan (plan.runs.toNat - 1) 1)

end Action
end Deferred
