import Deferred.Future

/-! Running a program on one thread with a virtual clock. Tasks that may run are due in the order
in which they were woken, and each of their turns has an allowance of its own. The main computation
is polled at the end of a round, when no task is due or many have run; a task that has spent its
allowance is due again in the next round. Only when nothing may run does the clock move, straight
to the next deadline. Tasks that are left when the main computation ends stay, and run on with the
next one. -/

namespace Deferred

variable {σ α : Type}

/-- A task that has stopped at a wait, or has not been polled yet. -/
structure Job (σ : Type) where
  wait : Wait σ
  resume : σ → Task σ

/-- All tasks of a program: those due, in this order; those that have spent their allowance, the
last one first; and those that wait, in the order in which they began to. -/
structure Crew (σ : Type) where
  due : List (Job σ)
  spent : List (Job σ)
  idle : List (Job σ)

namespace Crew

def empty : Crew σ := ⟨[], [], []⟩

def spawn (crew : Crew σ) (child : σ → Task σ) : Crew σ :=
  { crew with due := crew.due ++ [⟨.passed, child⟩] }

/-- Makes those tasks due that the state lets go on. -/
def wake (crew : Crew σ) (state : σ) : Crew σ :=
  let (woken, asleep) := crew.idle.partition fun job => job.wait.opens state
  { crew with due := crew.due ++ woken, idle := asleep }

/-- Makes those tasks due that only waited for their next turn. -/
def nextRound (crew : Crew σ) : Crew σ :=
  { crew with due := crew.due ++ crew.spent, spent := [] }

/-- Takes in what is left of a task that has just been polled. -/
def settle [Host σ] (crew : Crew σ) : Task σ → Crew σ × σ
  | .done state => (crew, state)
  | .waiting wait resume state =>
      let job := ⟨wait, resume⟩
      if wait.isSpent state then ({ crew with spent := job :: crew.spent }, state)
      else ({ crew with idle := crew.idle ++ [job] }, state)
  | .spawn child rest state => (crew.spawn child).settle (rest state)

/-- Polls the task that is due first, if any is. -/
def poll [Host σ] (crew : Crew σ) (state : σ) : Option (Crew σ × σ) :=
  match crew.due with
  | [] => none
  | job :: rest =>
      let (after, left) := { crew with due := rest }.settle (job.resume (Host.refill state))
      some (after.wake left, left)

def nextDeadline (crew : Crew σ) (wait : Wait σ) : Option Nat :=
  crew.idle.foldl (fun soonest job => Wait.earlier soonest job.wait.deadline) wait.deadline

end Crew

inductive Ending (α : Type) where
  | finished (value : α)
  | panicked (payload : Payload)
  | stuck

/-- The greatest number of tasks that run in one round. -/
def round : Nat := 61

/-- Drives the main computation to its end. The first argument bounds the number of polls, and the
second is the number of tasks that may still run in this round. -/
def drive [Host σ] : Nat → Nat → Crew σ → Poll σ α → Ending α × Crew σ × σ
  | _, _, crew, .ready value state => (.finished value, crew, state)
  | _, _, crew, .panic payload state => (.panicked payload, crew, state)
  | 0, _, crew, .waiting _ _ state => (.stuck, crew, state)
  | 0, _, crew, .spawn _ _ state => (.stuck, crew, state)
  | turns + 1, left, crew, .spawn child rest state =>
      drive turns left (crew.spawn child) (rest state)
  | turns + 1, left, crew, .waiting wait resume state =>
      let crew := crew.wake state
      match left, crew.poll state with
      | left + 1, some (after, next) => drive turns left after (.waiting wait resume next)
      | _, _ =>
          let crew := crew.nextRound
          let fresh := Host.refill state
          if wait.opens fresh then drive turns round crew (resume fresh)
          else if crew.due.isEmpty then
            match crew.nextDeadline wait with
            | none => (.stuck, crew, state)
            | some time =>
                let later := Host.elapse time fresh
                let crew := crew.wake later
                if wait.opens later then drive turns round crew (resume later)
                else drive turns round crew (.waiting wait resume later)
          else drive turns round crew (.waiting wait resume state)

/-- More turns than any process can live to take. -/
def turns : Nat := UInt64.size

/-- Runs a main computation, which goes on in the turn that has begun. -/
def execute [Host σ] (crew : Crew σ) (main : Future σ α) (state : σ) :
    Ending α × Crew σ × σ :=
  drive turns round crew (main state)

end Deferred
