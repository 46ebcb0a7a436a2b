import Deferred.Proofs.Laws.Alternatives
import Deferred.Proofs.Pace.Private
import Deferred.Proofs.Retry

/-! Retrying in the hearing of a listener. The loop tells events, and what becomes of them is no
business of the program's: they go to a listener, of whom nothing is known and whom nobody asks.
But for what the listener has heard, running an action again at once is falling back on the same
action for as often as the plan allows. -/

namespace Deferred

variable {σ κ α β ρ : Type}

/-- A program whose events are told to a listener. -/
@[reducible] def Host.heard [Host σ] (tell : Event → κ → κ) : Host (σ × κ) :=
  { (inferInstance : Host (σ × κ)) with
    trace := fun event s => (s.1, tell event s.2)
    now_trace := fun _ _ => rfl
    allowance_trace := fun _ _ => rfl }

/-- Retried, and the events of the loop are told to the listener. -/
def Action.retriedHeard [Host σ] [HasFailure ρ] (tell : Event → κ → κ) (action : Action (σ × κ) ρ)
    (plan : RetryPlan) : Action (σ × κ) ρ :=
  letI : Host (σ × κ) := .heard tell
  action.retried plan

/-- The second computation does what the first one does, and now and then tells a listener
something. -/
inductive Poll.Echoes : Poll σ α → Poll (σ × κ) α → Prop where
  | ready {value state ear} : Echoes (.ready value state) (.ready value (state, ear))
  | panic {payload state ear} : Echoes (.panic payload state) (.panic payload (state, ear))
  | waiting {wait resume next state ear} (goesOn : ∀ s ear, Echoes (resume s) (next (s, ear))) :
      Echoes (.waiting wait resume state) (.waiting wait.along next (state, ear))
  | spawn {child rest next state ear} (goesOn : ∀ s ear, Echoes (rest s) (next (s, ear))) :
      Echoes (.spawn child rest state)
        (.spawn (fun s => (child s.1).along s.2) next (state, ear))

/-- The states are the same, whatever the two listeners have heard. -/
abbrev Pace.deaf (σ κ ι : Type) : Pace (σ × κ) (σ × ι) :=
  .beside σ (fun _ _ => True) (fun _ _ => True)

namespace Poll.Echoes

theorem along (poll : Poll σ α) (ear : κ) : poll.Echoes (poll.along ear) := by
  induction poll generalizing ear with
  | ready => exact .ready
  | panic => exact .panic
  | waiting wait resume state ih => exact .waiting ih
  | spawn child rest state ih => exact .spawn ih

theorem bind {poll : Poll σ α} {heard : Poll (σ × κ) α} {next : α → σ → Poll σ β}
    {follow : α → σ × κ → Poll (σ × κ) β} (echoes : poll.Echoes heard)
    (goesOn : ∀ value state ear, (next value state).Echoes (follow value (state, ear))) :
    (poll.bind next).Echoes (heard.bind follow) := by
  induction echoes with
  | ready => exact goesOn _ _ _
  | panic => exact .panic
  | waiting _ ih => exact .waiting ih
  | spawn _ ih => exact .spawn ih

/-- What does the same as a third computation is in step. -/
theorem inStep {ι : Type} {poll : Poll σ α} {heard : Poll (σ × κ) α} {other : Poll (σ × ι) α}
    (echoes : poll.Echoes heard) (again : poll.Echoes other) :
    heard.InStep (.deaf σ κ ι) (Pace.same _) () other := by
  induction echoes generalizing other with
  | ready => cases again; exact .ready ⟨rfl, rfl, trivial⟩
  | panic => cases again; exact .panic ⟨rfl, rfl, trivial⟩
  | @waiting wait resume next state ear _ ih =>
    cases again with
    | waiting goesOn =>
      refine .waiting ⟨rfl, trivial⟩ ⟨rfl, ?_, ?_⟩ ?_
      · rintro ⟨s, _⟩ ⟨_, _⟩ ⟨rfl, -⟩
        rfl
      · rintro ⟨s, _⟩ ⟨_, _⟩ ⟨rfl, -⟩
        exact ⟨rfl, trivial⟩
      · rintro ⟨⟩ ⟨s, ear⟩ ⟨_, other⟩ ⟨rfl, -⟩ -
        exact ih s ear (goesOn s other)
  | @spawn child rest next state ear _ ih =>
    cases again with
    | spawn goesOn => exact .spawn ⟨child, rfl, rfl⟩ (ih _ _ (goesOn _ _))

end Poll.Echoes

/-- Run and awaited, the second action does what the first one does. -/
def Action.Echoes (action : Action σ ρ) (heard : Action (σ × κ) ρ) : Prop :=
  ∀ state ear, (action.awaited state).Echoes (heard.awaited (state, ear))

theorem Action.echoes_along (action : Action σ ρ) :
    action.Echoes (action.along : Action (σ × κ) ρ) := by
  intro state ear
  rw [awaited_along]
  exact .along _ ear

/-- The action, and then again for so many times where it has failed. -/
def Action.repeated [HasFailure ρ] (action : Action σ ρ) (times : Nat) : Action σ ρ :=
  .lazily do
    let result ← action.awaited
    fallBack HasFailure.isFailure (List.replicate times action) result

theorem Action.Echoes.retriedHeard [Host σ] [HasFailure ρ] {action : Action σ ρ}
    {heard : Action (σ × κ) ρ} (echoes : action.Echoes heard) (tell : Event → κ → κ)
    (budget : UInt64) :
    (action.repeated ((RetryPlan.atOnce budget).runs.toNat - 1)).Echoes
      (heard.retriedHeard tell (.atOnce budget)) := by
  let plan := RetryPlan.atOnce budget
  let heardHost : Host (σ × κ) := .heard tell
  suffices all : ∀ left attempt state ear,
      ((action.awaited >>= fallBack HasFailure.isFailure (List.replicate left action)) state).Echoes
        (heard.runsFrom plan left attempt (state, ear)) from all _ 1
  -- by induction on the runs that are left: what is told before the next one only changes the ear
  intro left
  induction left with
  | zero =>
    intro attempt state ear
    rw [Retry.runsFrom_zero]
    refine (echoes state ear).bind fun result state ear => ?_
    split <;> exact .ready
  | succ left ih =>
    intro attempt state ear
    rw [Retry.runsFrom_succ]
    refine (echoes state ear).bind fun result state ear => ?_
    cases fails : HasFailure.isFailure result with
    | false =>
      rw [Action.fallBack_of_fine _ fails]
      exact .ready
    | true =>
      simp only [List.replicate_succ, Action.fallBack, fails, ↓reduceIte]
      exact ih (attempt + 1) state (tell (.retrying (attempt + 1) plan.runs) ear)

end Deferred
