import Deferred.Future

/-! Many futures in one task. A crowd does not go through its branches in their order: it polls
those that have been called, in the order of the calls, and goes on for as long as somebody is
called. A branch that has spent the allowance of the turn is called in the next one, the last such
branch first. The crowd lets other tasks go first when all its branches have been polled without an
answer, or when two of them have called themselves. -/

namespace Deferred

variable {σ α : Type}

/-- A future of the crowd that has not answered yet. -/
structure Branch (σ α : Type) where
  number : Nat
  wait : Wait σ
  resume : σ → Poll σ α

/-- The branches that have been called, those that wait, in the order in which they were polled,
and those that have spent the allowance, the last one first. -/
structure Crowd (σ α : Type) where
  called : List (Branch σ α)
  waiting : List (Branch σ α)
  spent : List (Branch σ α)
  answers : List (Nat × α)
  polled : Nat
  restless : Nat

namespace Crowd

def ofList (futures : List (Future σ α)) : Crowd σ α :=
  ⟨futures.zipIdx.map fun (future, number) => ⟨number, .passed, future⟩, [], [], [], 0, 0⟩

def branches (crowd : Crowd σ α) : List (Branch σ α) :=
  crowd.called ++ crowd.waiting ++ crowd.spent

/-- The answers in the order of the branches. -/
def results (crowd : Crowd σ α) : List α :=
  (List.range crowd.answers.length).filterMap fun number => crowd.answers.lookup number

/-- Calls the branches that the state lets go on. -/
def wake (crowd : Crowd σ α) (state : σ) : Crowd σ α :=
  let (first, waiting) := crowd.waiting.partition fun branch => branch.wait.opens state
  let (second, spent) := crowd.spent.partition fun branch => branch.wait.opens state
  { crowd with called := crowd.called ++ first ++ second, waiting, spent }

/-- The crowd in a new turn. -/
def freshTurn (crowd : Crowd σ α) (state : σ) : Crowd σ α :=
  { crowd.wake state with polled := 0, restless := 0 }

def answer (crowd : Crowd σ α) (number : Nat) (value : α) : Crowd σ α :=
  { crowd with answers := (number, value) :: crowd.answers, polled := 0, restless := 0 }

/-- Takes back a branch that has been polled and has to wait. -/
def link [Host σ] (crowd : Crowd σ α) (branch : Branch σ α) (state : σ) : Crowd σ α :=
  let crowd := { crowd with polled := crowd.polled + 1 }
  if branch.wait.isSpent state then { crowd with spent := branch :: crowd.spent }
  else
    let restless := if branch.wait.opens state then crowd.restless + 1 else crowd.restless
    { crowd with waiting := crowd.waiting ++ [branch], restless }

/-- Whether the crowd lets other tasks go first. -/
def yields (crowd : Crowd σ α) : Bool :=
  2 ≤ crowd.restless || crowd.polled == crowd.branches.length

/-- Waiting for any branch, and holding what all of them hold. -/
def wait (crowd : Crowd σ α) : Wait σ :=
  (crowd.branches.map Branch.wait).foldl Wait.either .forever

def release (crowd : Crowd σ α) (state : σ) : σ :=
  crowd.wait.release state

/-- Goes on after a branch has been polled. -/
def settle [Host σ] (next : Crowd σ α → σ → Poll σ (List α)) (crowd : Crowd σ α) (number : Nat) :
    Poll σ α → Poll σ (List α)
  | .ready value state => next ((crowd.answer number value).wake state) state
  | .panic payload state => .panic payload (crowd.release state)
  | .spawn child rest state => .spawn child (fun s => crowd.settle next number (rest s)) state
  | .waiting wait resume state =>
      let linked := crowd.link ⟨number, wait, resume⟩ state
      if linked.yields then
        .waiting (.either .passed linked.wait) (fun s => next (linked.freshTurn s) s) state
      else next (linked.wake state) state

/-- Polls the branches until all have answered. The first argument bounds the number of polls. -/
def run [Host σ] : Nat → Crowd σ α → σ → Poll σ (List α)
  | 0, crowd, state =>
      .waiting (.either .forever crowd.wait)
        (Future.panic (.fixed "resumed a wait that never opens")) state
  | left + 1, crowd, state =>
      match crowd.called with
      | branch :: called =>
          { crowd with called }.settle (run left) branch.number (branch.resume state)
      | [] =>
          if crowd.branches.isEmpty then .ready crowd.results state
          else .waiting crowd.wait (fun s => run left (crowd.freshTurn s) s) state

end Crowd

namespace Future

/-- More polls than any process can live to make. -/
def crowdPolls : Nat := UInt64.size

def crowd [Host σ] (futures : List (Future σ α)) : Future σ (List α) :=
  Crowd.run crowdPolls (.ofList futures)

end Future
end Deferred
