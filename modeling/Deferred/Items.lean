import Deferred.Future

/-! The run of a feed as a tree: items, and in between whatever a future does as well. Between two
items the run holds what its `release` gives back; where it ends or panics inside itself there is
nothing left to hold but what the node says. -/

namespace Deferred

variable {σ α β : Type}

inductive Items (σ α : Type) where
  | item (value : α) (rest : σ → Items σ α) (release : σ → σ) (state : σ)
  | ended (state : σ)
  | panic (payload : Payload) (release : σ → σ) (state : σ)
  | waiting (wait : Wait σ) (resume : σ → Items σ α) (state : σ)
  | spawn (child : σ → Task σ) (rest : σ → Items σ α) (state : σ)

/-- A run that has not been polled yet. -/
def Flow (σ α : Type) : Type := σ → Items σ α

namespace Items

/-- What a future does first, and the items that follow its answer. -/
def ofPoll (poll : Poll σ β) (next : β → σ → Items σ α) : Items σ α :=
  match poll with
  | .ready value state => next value state
  | .panic payload state => panic payload id state
  | .waiting wait resume state => waiting wait (fun s => ofPoll (resume s) next) state
  | .spawn child rest state => spawn child (fun s => ofPoll (rest s) next) state

def map (f : α → Code σ β) : Items σ α → Items σ β
  | item value rest release state =>
      match f value state with
      | (.ok mapped, after) => item mapped (fun s => (rest s).map f) release after
      | (.error payload, after) => panic payload release after
  | ended state => ended state
  | panic payload release state => panic payload release state
  | waiting wait resume state => waiting wait (fun s => (resume s).map f) state
  | spawn child rest state => spawn child (fun s => (rest s).map f) state

def filter (accepts : α → Code σ Bool) : Items σ α → Items σ α
  | item value rest release state =>
      match accepts value state with
      | (.ok true, after) => item value (fun s => (rest s).filter accepts) release after
      | (.ok false, after) => (rest after).filter accepts
      | (.error payload, after) => panic payload release after
  | ended state => ended state
  | panic payload release state => panic payload release state
  | waiting wait resume state => waiting wait (fun s => (resume s).filter accepts) state
  | spawn child rest state => spawn child (fun s => (rest s).filter accepts) state

def append (next : Flow σ α) : Items σ α → Items σ α
  | item value rest release state => item value (fun s => (rest s).append next) release state
  | ended state => next state
  | panic payload release state => panic payload release state
  | waiting wait resume state => waiting wait (fun s => (resume s).append next) state
  | spawn child rest state => spawn child (fun s => (rest s).append next) state

/-- All items of the run in their order, after those that have come before, the last one first. -/
def gatherAfter (earlier : List α) : Items σ α → Poll σ (List α)
  | item value rest _ state => (rest state).gatherAfter (value :: earlier)
  | ended state => .ready earlier.reverse state
  | panic payload release state => .panic payload (release state)
  | waiting wait resume state => .waiting wait (fun s => (resume s).gatherAfter earlier) state
  | spawn child rest state => .spawn child (fun s => (rest s).gatherAfter earlier) state

/-- All items of the run in their order. -/
def gather (items : Items σ α) : Poll σ (List α) :=
  items.gatherAfter []

theorem gatherAfter_eq (earlier : List α) (items : Items σ α) :
    items.gatherAfter earlier = items.gather.map (earlier.reverse ++ ·) := by
  suffices general : ∀ earlier later : List α,
      items.gatherAfter (later ++ earlier) =
        (items.gatherAfter later).map (earlier.reverse ++ ·) from general earlier []
  induction items with
  | item value rest release state ih =>
      intro earlier later
      exact ih state earlier (value :: later)
  | ended state => intro earlier later; simp [gatherAfter, Poll.map, Poll.bind]
  | panic payload release state => intros; rfl
  | waiting wait resume state ih =>
      intro earlier later
      simp only [gatherAfter, Poll.map, Poll.bind]
      congr 1
      funext s
      exact ih s earlier later
  | spawn child rest state ih =>
      intro earlier later
      simp only [gatherAfter, Poll.map, Poll.bind]
      congr 1
      funext s
      exact ih s earlier later

theorem gather_item (value : α) (rest : σ → Items σ α) (release : σ → σ) (state : σ) :
    (item value rest release state).gather = (rest state).gather.map (value :: ·) :=
  gatherAfter_eq [value] (rest state)

/-- Hands each item to the visitor before the next one is pulled. -/
def visit (visitor : α → Code σ Unit) : Items σ α → Poll σ Unit
  | item value rest release state =>
      match visitor value state with
      | (.ok (), after) => (rest after).visit visitor
      | (.error payload, after) => .panic payload (release after)
  | ended state => .ready () state
  | panic payload release state => .panic payload (release state)
  | waiting wait resume state => .waiting wait (fun s => (resume s).visit visitor) state
  | spawn child rest state => .spawn child (fun s => (rest s).visit visitor) state

/-- A task that delivers the items for as long as somebody takes them, and then says how the run
ended. An item that nobody takes is the last one pulled. -/
def toTask (deliver : α → σ → Bool × σ) (finish : Option Payload → σ → σ) : Items σ α → Task σ
  | item value rest release state =>
      match deliver value state with
      | (true, after) => (rest after).toTask deliver finish
      | (false, after) => .done (finish none (release after))
  | ended state => .done (finish none state)
  | panic payload release state => .done (finish (some payload) (release state))
  | waiting wait resume state => .waiting wait (fun s => (resume s).toTask deliver finish) state
  | spawn child rest state => .spawn child (fun s => (rest s).toTask deliver finish) state

end Items

namespace Flow

def empty : Flow σ α :=
  fun state => .ended state

def never : Flow σ α :=
  fun state => .waiting .forever empty state

def ofList : List α → Flow σ α
  | [] => empty
  | value :: values => fun state => .item value (ofList values) id state

/-- The item that the future answers with, before those of the rest. -/
def cons (future : Future σ α) (rest : Flow σ α) : Flow σ α :=
  fun state => .ofPoll (future state) fun value after => .item value rest id after

/-- Spawns the tasks in order before the run goes on. -/
def spawning (children : List (σ → Task σ)) (flow : Flow σ α) : Flow σ α :=
  match children with
  | [] => flow
  | child :: rest => fun state => .spawn child (spawning rest flow) state

end Flow

/-- A run that has stopped at a point where it can be polled again or dropped. -/
structure Cursor (σ α : Type) where
  wait : Wait σ
  resume : σ → Items σ α

def Flow.cursor (flow : Flow σ α) : Cursor σ α :=
  ⟨.passed, flow⟩

/-- What one pull gives. After an item, or when the time was too short, the run can go on; after a
panic it only waits to be released. -/
inductive Pull (σ α : Type) where
  | item (value : α) (rest : Cursor σ α)
  | ended
  | panicked (payload : Payload) (release : σ → σ)
  | late (rest : Cursor σ α)

/-- Pulls the next item, giving up at the given time without dropping anything. Giving up costs. -/
def Items.pull [Host σ] (time : Nat) : Items σ α → Poll σ (Pull σ α)
  | item value rest release state => .ready (.item value ⟨{ Wait.passed with release }, rest⟩) state
  | ended state => .ready .ended state
  | panic payload release state => .ready (.panicked payload release) state
  | spawn child rest state => .spawn child (fun s => (rest s).pull time) state
  | waiting wait resume state =>
      if time ≤ Host.now state then .ready (.late ⟨wait, resume⟩) (Host.spend state)
      else
        .waiting
          ⟨Wait.earlier wait.deadline (some time),
            fun s => wait.opens s || decide (time ≤ Host.now s), id⟩
          (fun s =>
            if wait.opens s then (resume s).pull time
            else .ready (.late ⟨wait, resume⟩) (Host.spend s))
          state

/-- Polls the run again at the point where it stopped. -/
def Cursor.pull [Host σ] (millis : Nat) (cursor : Cursor σ α) : Future σ (Pull σ α) :=
  fun state =>
    let time := Host.now state + millis
    if cursor.wait.opens state then (cursor.resume state).pull time
    else (Items.waiting cursor.wait cursor.resume state).pull time

end Deferred
