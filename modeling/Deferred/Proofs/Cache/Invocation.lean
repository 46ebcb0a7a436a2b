import Deferred.Action

/-! One invocation of an action, polled in states of which nothing is known. -/

namespace Deferred

variable {σ ρ : Type}

/-- A computation that has stopped somewhere goes on from there. -/
inductive Poll.GoesOn : Poll σ ρ → Poll σ ρ → Prop where
  | resume {wait resume before} (state : σ) (opens : wait.opens state = true) :
      GoesOn (.waiting wait resume before) (resume state)
  | spawn {child rest before} (state : σ) : GoesOn (.spawn child rest before) (rest state)

/-- Whether the computation can be dropped where it has stopped. -/
def Poll.isWaiting : Poll σ ρ → Bool
  | waiting _ _ _ => true
  | _ => false

namespace Action

/-- An invocation of the action may have come to this point. -/
inductive Invokes (action : Action σ ρ) : Poll σ ρ → Prop where
  | start (state : σ) : Invokes action (action.awaited state)
  | goesOn {poll next} (invokes : Invokes action poll) (step : poll.GoesOn next) :
      Invokes action next

/-- An invocation of the action may give this result. -/
def Gives (action : Action σ ρ) (result : ρ) : Prop :=
  ∃ state, action.Invokes (.ready result state)

end Action
end Deferred
