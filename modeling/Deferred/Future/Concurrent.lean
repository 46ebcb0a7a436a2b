import Deferred.Future.Crowd

/-! Futures side by side in one task. Every poll goes through the branches in order and lets each
one run that is not waiting for something else; the whole is ready when all branches are. A limit
is the other way to combine: the future against the clock, where the future goes first. -/

namespace Deferred

variable {σ α β : Type}

namespace Poll

/-- The left branch waits, the right one has just been polled. -/
def besideWaiting (wait : Wait σ) (left : σ → Poll σ α)
    (leftFirst : σ → Wait σ → (σ → Poll σ β) → Poll σ (α × β)) :
    Poll σ β → Poll σ (α × β)
  | ready value state => waiting wait (fun s => (left s).map (·, value)) state
  | panic payload state => panic payload (wait.release state)
  | spawn child rest state =>
      spawn child (fun s => besideWaiting wait left leftFirst (rest s)) state
  | waiting other resume state =>
      waiting (wait.either other)
        (fun s =>
          if wait.opens s then leftFirst s other resume
          else besideWaiting wait left leftFirst (resume s))
        state

/-- The left branch has just been polled; the right one waits and is polled next if it may. -/
def beside : Poll σ α → Wait σ → (σ → Poll σ β) → Poll σ (α × β)
  | ready value state, other, right =>
      if other.opens state then (right state).map (value, ·)
      else waiting other (fun s => (right s).map (value, ·)) state
  | panic payload state, other, _ => panic payload (other.release state)
  | spawn child rest state, other, right =>
      spawn child (fun s => (rest s).beside other right) state
  | waiting wait resume state, other, right =>
      let leftFirst := fun s other right => (resume s).beside other right
      if other.opens state then besideWaiting wait resume leftFirst (right state)
      else
        waiting (wait.either other)
          (fun s =>
            if wait.opens s then (resume s).beside other right
            else besideWaiting wait resume leftFirst (right s))
          state

/-- Runs until the given time and is dropped if it then still has to wait. That end costs, too. -/
def untilTime [Host σ] (time : Nat) : Poll σ α → Poll σ (Option α)
  | ready value state => ready (some value) state
  | panic payload state => panic payload state
  | spawn child rest state => spawn child (fun s => (rest s).untilTime time) state
  | waiting wait resume state =>
      if time ≤ Host.now state then ready none (Host.spend (wait.release state))
      else
        waiting
          { wait with
            deadline := Wait.earlier wait.deadline (some time)
            opens := fun s => wait.opens s || decide (time ≤ Host.now s) }
          (fun s =>
            if wait.opens s then (resume s).untilTime time
            else ready none (Host.spend (wait.release s)))
          state

end Poll

namespace Future

def both (left : Future σ α) (right : Future σ β) : Future σ (α × β) :=
  fun state => (left state).beside .passed right

/-- All answers, the futures being polled in their order. -/
def inOrder : List (Future σ α) → Future σ (List α)
  | [] => pure []
  | future :: rest => do
      let (value, values) ← both future (inOrder rest)
      return value :: values

/-- All answers. More than thirty futures are a crowd. -/
def all [Host σ] (futures : List (Future σ α)) : Future σ (List α) :=
  if futures.length ≤ 30 then inOrder futures else crowd futures

/-- The answer of the future, or nothing if it needs longer than the given milliseconds. -/
def within [Host σ] (millis : Nat) (future : Future σ α) : Future σ (Option α) :=
  fun state => (future state).untilTime (Host.now state + millis)

end Future
end Deferred
