import Deferred.Items
import Deferred.Attempt

/-! Feeds: sources of items that can be run any number of times, each run from the start. Starting
a run gives a flow; adaptors start the feeds they are made of and nothing else, and only polling
pulls items through them, one item through all stages before the next. Sinks turn a feed into an
attempt, in which a panic of any stage is a failure. -/

namespace Deferred

structure Feed (σ α : Type) where
  start : Code σ (Flow σ α)

namespace Feed

variable {σ α β : Type}

def ofList (values : List α) : Feed σ α :=
  ⟨pure (.ofList values)⟩

def single (value : α) : Feed σ α :=
  ofList [value]

def empty : Feed σ α :=
  ⟨pure .empty⟩

def never : Feed σ α :=
  ⟨pure .never⟩

/-- The value of a successful run of the attempt, which is called at the start. A failure gives no
item, and has been recorded already. -/
def ofAttempt (attempt : Attempt σ α) : Feed σ α where
  start := do
    let future ← attempt.call
    return fun state => .ofPoll (future state) fun verdict after =>
      match verdict with
      | .success value => .item value Flow.empty id after
      | .failure _ => .ended after

def map (feed : Feed σ α) (f : α → Code σ β) : Feed σ β where
  start := do
    let flow ← feed.start
    return fun state => (flow state).map f

def filter (feed : Feed σ α) (accepts : α → Code σ Bool) : Feed σ α where
  start := do
    let flow ← feed.start
    return fun state => (flow state).filter accepts

/-- All items of the first feed and then all of the second. Both are started at once. -/
def append (first second : Feed σ α) : Feed σ α where
  start := do
    let flow ← first.start
    let next ← second.start
    return fun state => (flow state).append next

def gather [Host σ] (feed : Feed σ α) : Attempt σ (List α) :=
  .lift do
    let flow ← feed.start
    return fun state => (flow state).gather

def visit [Host σ] (feed : Feed σ α) (visitor : α → Code σ Unit) : Attempt σ Unit :=
  .lift do
    let flow ← feed.start
    return fun state => (flow state).visit visitor

end Feed
end Deferred
