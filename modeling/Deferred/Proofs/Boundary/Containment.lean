import Deferred.Proofs.Answers
import Deferred.Proofs.Boundary.History
import Deferred.Proofs.Notebook

/-! No panic leaves an action, whatever it is built from: the account that counts nothing is obeyed
by all code. What a panic becomes is decided in two places, one for code that is called and one for
futures that are polled. -/

namespace Deferred

variable {σ ρ : Type} [Host σ] {action : Action σ ρ}

/-- What can be read of a panic. -/
def Payload.reads : Payload → String
  | owned text => text
  | fixed text => text
  | number _ => "non-string panic payload"
  | error _ => "non-string panic payload"

theorem Error.ofPanic_eq (payload : Payload) : Error.ofPanic payload = .panicked payload.reads := by
  cases payload <;> rfl

theorem contain_of_panic {α : Type} {code : Code σ α} {state after : σ} {payload : Payload}
    (panics : code state = (.error payload, after)) :
    contain code state = (.error (.ofPanic payload), Host.record (.ofPanic payload) after) := by
  unfold contain
  rw [panics]

theorem contain_of_ok {α : Type} {code : Code σ α} {state after : σ} {value : α}
    (ok : code state = (.ok value, after)) : contain code state = (.ok value, after) := by
  unfold contain
  rw [ok]

theorem contain_then {α β : Type} (code : Code σ α) (next : Except Error α → Code σ β) (state : σ) :
    (do let answer ← contain code; next answer : Code σ β) state =
      next (contain code state).1 (contain code state).2 := rfl

/-- What must not panic does not, wherever its waits are resumed in states that open them. -/
theorem Poll.Obeys.not_panics {α : Type} {account : Account σ} {due : α → Option Error}
    {poll : Poll σ α} {start last : σ} {inputs : List σ} {payload : Payload}
    (obeys : poll.Obeys account False due start) : ¬poll.Panics inputs payload last := by
  intro panics
  induction panics generalizing start with
  | panic => exact obeys.1
  | resume opens _ ih => exact ih (obeys.2.2 _ opens)
  | spawn _ ih => exact ih (obeys.2.2 _)

theorem Built.not_panics (built : Built (Manner.any : Manner σ) action) (state : σ)
    (inputs : List σ) (payload : Payload) (last : σ) :
    ¬(action.awaited state).Panics inputs payload last :=
  ((built.sound Manner.any_within).awaited state).not_panics

/-- Nothing that is built from any code of the user's lets a panic out: every call hands back a
future, and no history of it ends in a panic. A panic of code that is called inside, or of a future
that is polled inside, becomes the error that says what can be read of it, recorded once; a future
that does not panic answers as before. -/
theorem Built.contains_panics (built : Built (Manner.any : Manner σ) action) :
    (∀ state, ∃ future after, action.call state = (.ok future, after)) ∧
      (∀ own others run tasks, action.History own others run tasks → run ≠ .panicked) ∧
      (∀ (α : Type) (code : Code σ α) (state after : σ) (payload : Payload),
        code state = (.error payload, after) → contain code state =
          (.error (.panicked payload.reads), Host.record (.panicked payload.reads) after)) ∧
      ∀ (α : Type) (poll : Poll σ α) (inputs : List σ) (answer : Except Error α) (last : σ),
        poll.contained.Answers inputs answer last ↔
          (∃ value, answer = .ok value ∧ poll.Answers inputs value last) ∨
          ∃ payload before, answer = .error (.panicked payload.reads) ∧
            last = Host.record (.panicked payload.reads) before ∧
            poll.Panics inputs payload before := by
  have sound := built.sound Manner.any_within
  refine ⟨fun state => ?_, fun own others run tasks history panicked => ?_,
    fun α code state after payload panics => ?_, fun α poll inputs answer last => ?_⟩
  · obtain ⟨future, after, called, -, -⟩ := sound state
    exact ⟨future, after, called⟩
  · have kept := (sound.kept history).run
    rw [panicked] at kept
    exact kept
  · rw [← Error.ofPanic_eq]
    exact contain_of_panic panics
  · simp only [← Error.ofPanic_eq]
    exact Poll.contained_answers_iff

/-- A feed that panics when it is started, after an attempt that panics when it is built. -/
def unruly : Action (Notebook Unit) (Verdict (List Nat)) :=
  ((Attempt.lift (Code.panic (.fixed "unready"))).orElse
    (Feed.gather ⟨Code.panic (.error .bottom)⟩)).retried (.atOnce 2)

theorem unruly_contained :
    ∃ own, unruly.History own [] (.answered (.failure (.panicked "non-string panic payload"))) [] ∧
      ∀ own others run tasks, unruly.History own others run tasks → run ≠ .panicked := by
  have built : Built Manner.any unruly :=
    .retried (.orElse (.lift ⟨trivial, fun _ _ => trivial⟩)
      (.gather trivial (.own ⟨trivial, fun _ _ => trivial⟩))) _
  have called : unruly.History _ [] (.stopped .passed _) [] :=
    .call (rfl : unruly.call (.opened ()) = _)
  have polled := called.poll (rfl : Wait.passed.opens (Notebook.opened ()) = true)
  exact ⟨_, polled, built.contains_panics.2.1⟩

end Deferred
