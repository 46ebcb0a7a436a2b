import Deferred.Executor
import Deferred.Proofs.Pace.InStep

/-! Running one computation by itself to its end. While it spawns nothing, each of its polls is a
turn of its own, and the clock moves only when a new turn would not let it go on. -/

namespace Deferred

variable {σ α β : Type} [Host σ] {wait : Wait σ} {resume : σ → Poll σ α} {state next : σ}

/-- The executor drives the computation to this value, and leaves this state and no tasks. -/
def Poll.Ends (poll : Poll σ α) (value : α) (last : σ) : Prop :=
  ∃ turns, drive turns round .empty poll = (.finished value, .empty, last)

/-- The state in which the executor polls a computation again that waits for this alone. -/
def Wait.next? (wait : Wait σ) (state : σ) : Option σ :=
  let fresh := Host.refill state
  if wait.opens fresh then some fresh
  else wait.deadline.bind fun time =>
    let later := Host.elapse time fresh
    if wait.opens later then some later else none

namespace Wait

theorem next?_congr {other : Wait σ} (deadline : wait.deadline = other.deadline)
    (opens : wait.opens = other.opens) (state : σ) : wait.next? state = other.next? state := by
  unfold next?
  rw [deadline, opens]

theorem opens_of_next (found : wait.next? state = some next) : wait.opens next = true := by
  unfold next? at found
  dsimp only at found
  split at found
  next opens =>
    obtain rfl := Option.some.inj found
    exact opens
  next =>
    obtain ⟨time, -, found⟩ := Option.bind_eq_some_iff.mp found
    split at found
    next opens =>
      obtain rfl := Option.some.inj found
      exact opens
    next => cases found

end Wait

theorem drive_waiting (turns : Nat) (wait : Wait σ) (resume : σ → Poll σ α) (state : σ) :
    drive (turns + 1) round .empty (.waiting wait resume state) =
      if wait.opens (Host.refill state) then
        drive turns round .empty (resume (Host.refill state))
      else match wait.deadline with
        | none => (.stuck, .empty, state)
        | some time =>
            let later := Host.elapse time (Host.refill state)
            if wait.opens later then drive turns round .empty (resume later)
            else drive turns round .empty (.waiting wait resume later) :=
  rfl

namespace Poll

theorem ends_ready_iff {value result : α} {last : σ} :
    (ready value state).Ends result last ↔ value = result ∧ state = last := by
  constructor
  · rintro ⟨_ | turns, same⟩ <;> cases same <;> exact ⟨rfl, rfl⟩
  · rintro ⟨rfl, rfl⟩
    exact ⟨0, rfl⟩

/-- What a turn comes to does not depend on how many are left. -/
theorem drive_goes_on (left : Nat) (crew : Crew σ) (wait : Wait σ) (resume : σ → Poll σ α)
    (state : σ) :
    (∃ more later poll, ∀ turns,
        drive (turns + 1) left crew (.waiting wait resume state) = drive turns more later poll) ∨
      ∃ later last, ∀ turns,
        drive (turns + 1) left crew (.waiting wait resume state) = (.stuck, later, last) := by
  simp only [drive]
  split
  next => exact .inl ⟨_, _, _, fun _ => rfl⟩
  next =>
    split
    next => exact .inl ⟨_, _, _, fun _ => rfl⟩
    next =>
      split
      next =>
        split
        next => exact .inr ⟨_, _, fun _ => rfl⟩
        next =>
          split
          next => exact .inl ⟨_, _, _, fun _ => rfl⟩
          next => exact .inl ⟨_, _, _, fun _ => rfl⟩
      next => exact .inl ⟨_, _, _, fun _ => rfl⟩

section
variable {turns left : Nat} {crew after : Crew σ} {poll : Poll σ α} {value : α} {last : σ}
  (ends : drive turns left crew poll = (.finished value, after, last))
include ends

theorem drive_succ : drive (turns + 1) left crew poll = (.finished value, after, last) := by
  induction turns generalizing left crew poll with
  | zero => cases poll <;> first | exact ends | cases ends
  | succ turns ih =>
    cases poll with
    | ready => exact ends
    | panic => cases ends
    | spawn => exact ih ends
    | waiting wait resume state =>
      rcases drive_goes_on left crew wait resume state with ⟨_, _, _, same⟩ | ⟨_, _, same⟩
      · rw [same] at ends ⊢
        exact ih ends
      · rw [same] at ends
        cases ends

/-- More turns make no difference to a computation that has come to its end. -/
theorem drive_add (more : Nat) :
    drive (turns + more) left crew poll = (.finished value, after, last) := by
  induction more with
  | zero => exact ends
  | succ more ih => exact drive_succ ih

end

theorem Ends.unique {poll : Poll σ α} {value other : α} {last final : σ}
    (ends : poll.Ends value last) (again : poll.Ends other final) :
    value = other ∧ last = final := by
  obtain ⟨turns, one⟩ := ends
  obtain ⟨more, two⟩ := again
  have same := (drive_add one more).symm.trans (Nat.add_comm turns more ▸ drive_add two turns)
  cases same
  exact ⟨rfl, rfl⟩

/-- Two computations that end in the same way, if they end. -/
def EndAlike (poll other : Poll σ α) : Prop :=
  ∀ value last, poll.Ends value last ↔ other.Ends value last

theorem EndAlike.trans {first second third : Poll σ α} (same : first.EndAlike second)
    (more : second.EndAlike third) : first.EndAlike third :=
  fun value last => (same value last).trans (more value last)

theorem drive_of_next (found : wait.next? state = some next) (turns : Nat) :
    drive (turns + 1) round .empty (.waiting wait resume state) =
      drive turns round .empty (resume next) := by
  rw [drive_waiting]
  unfold Wait.next? at found
  dsimp only at found
  split at found
  next opens =>
    obtain rfl := Option.some.inj found
    rw [if_pos opens]
  next closed =>
    obtain ⟨time, deadline, found⟩ := Option.bind_eq_some_iff.mp found
    split at found
    next opens =>
      obtain rfl := Option.some.inj found
      rw [if_neg closed, deadline]
      exact if_pos opens
    next => cases found

theorem endAlike_of_next (found : wait.next? state = some next) :
    (waiting wait resume state).EndAlike (resume next) := by
  intro value last
  constructor
  · rintro ⟨_ | turns, ends⟩
    · cases ends
    · exact ⟨turns, (drive_of_next found turns).symm.trans ends⟩
  · rintro ⟨turns, ends⟩
    exact ⟨turns + 1, (drive_of_next found turns).trans ends⟩

/-- A wait without a deadline that no new turn opens. -/
theorem not_ends_of_closed (closed : wait.opens (Host.refill state) = false)
    (never : wait.deadline = none) (value : α) (last : σ) :
    ¬(waiting wait resume state).Ends value last := by
  rintro ⟨_ | turns, ends⟩
  · cases ends
  · rw [drive_waiting, closed, never] at ends
    cases ends

/-- No poll of the computation, run by itself, stops where nothing is left of the allowance. -/
def Affords : Poll σ α → Prop
  | ready _ _ => True
  | panic _ _ => True
  | spawn _ rest state => (rest state).Affords
  | waiting wait resume state =>
      0 < Host.allowance state ∧ ∀ next ∈ wait.next? state, (resume next).Affords

theorem HaltsIn.not_affords {poll : Poll σ α}
    (halts : poll.HaltsIn fun state => Host.allowance state = 0) : ¬poll.Affords := by
  induction poll with
  | ready | panic => exact False.elim halts
  | waiting _ _ state =>
    rintro ⟨some, -⟩
    exact absurd halts (Nat.ne_of_gt some)
  | spawn _ _ state ih => exact ih state halts

end Poll
end Deferred
