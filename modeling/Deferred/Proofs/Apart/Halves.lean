import Deferred.Proofs.Apart.Completion
import Deferred.Proofs.Likeness.Branches

/-! Two branches side by side, each of which has stopped: it is over, or rests at a wait. What is
left of both together is polled again when one of the waits opens. The left half then goes first,
and the right half goes on in the same poll if it may. -/

namespace Deferred

variable {σ α β : Type}

/-- Where a branch has stopped. -/
inductive Half (σ α : Type) where
  | done (value : α)
  | rests (wait : Wait σ) (resume : σ → Poll σ α)

namespace Half

/-- The branch where it has stopped. -/
def stop : Half σ α → σ → Poll σ α
  | done value, state => .ready value state
  | rests wait resume, state => .waiting wait resume state

def wait : Half σ α → Wait σ
  | done _ => .forever
  | rests wait _ => wait

def resume : Half σ α → σ → Poll σ α
  | done value, state => .ready value state
  | rests _ resume, state => resume state

/-- The right branch has just been polled, and the left one has stopped. -/
def beside : Half σ α → Poll σ β → Poll σ (α × β)
  | done value, right => right.map (value, ·)
  | rests wait resume, right =>
      Poll.besideWaiting wait resume (fun s other right => (resume s).beside other right) right

/-- The left branch has just been polled, and the right one has stopped. -/
def after (left : Poll σ α) : Half σ β → Poll σ (α × β)
  | done value => left.map (·, value)
  | rests wait resume => left.beside wait resume

theorem halts_beside {there : σ → Prop} {right : Poll σ β} (halts : right.HaltsIn there)
    (left : Half σ α) : (left.beside right).HaltsIn there := by
  cases left with
  | done => exact halts.bind
  | rests wait resume => exact halts.besideWaiting wait resume _

/-- Both branches where they have stopped. -/
def both (left : Half σ α) (right : Half σ β) (state : σ) : Poll σ (α × β) :=
  left.beside (right.stop state)

/-- What a poll comes to: the left half goes first if it may. -/
def poll (left : Half σ α) (right : Half σ β) (state : σ) : Poll σ (α × β) :=
  if left.wait.opens state then right.after (left.resume state)
  else left.beside (right.resume state)

variable (left : Half σ α) (right : Half σ β) (state : σ)

theorem after_stop : right.after (left.stop state) =
    if right.wait.opens state then left.beside (right.resume state) else left.both right state := by
  cases left <;> cases right <;> rfl

/-- Both halves are over, or both together wait for whichever wait opens first. -/
theorem both_cases : (∃ a b, left = .done a ∧ right = .done b) ∨
    ∃ wait resume, left.both right state = .waiting wait resume state ∧
      wait.deadline = (left.wait.either right.wait).deadline ∧
      wait.opens = (left.wait.either right.wait).opens ∧
      ∀ next, wait.opens next = true → resume next = left.poll right next := by
  cases left with
  | done a =>
    cases right with
    | done b => exact .inl ⟨a, b, rfl, rfl⟩
    | rests wait resume => exact .inr ⟨wait, _, rfl, rfl, rfl, fun _ _ => rfl⟩
  | rests wait resume =>
    cases right with
    | done b =>
      refine .inr ⟨wait, _, rfl, ?_, funext fun state => (Bool.or_false _).symm, ?_⟩
      · show wait.deadline = Wait.earlier wait.deadline none
        cases wait.deadline <;> rfl
      · intro next opens
        exact (if_pos opens).symm
    | rests other later => exact .inr ⟨_, _, rfl, rfl, rfl, fun _ _ => rfl⟩

end Half
end Deferred
