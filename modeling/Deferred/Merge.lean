import Deferred.Cancellation
import Deferred.Feed
import Deferred.Hub

/-! Merging feeds. Each run of a merged feed has a hub of its own. At its first poll it spawns one
task per input, which pushes the input's items to the hub, and a supervisor, which waits for all
inputs to end, records their panics in the order of the inputs and closes the hub. The consumer
yields items in the order of their arrival until the hub is closed and drained or the scope is
cancelled. Inputs are never stopped from outside: each one notices at its next item that the
consumer is gone. -/

namespace Deferred

variable {σ α : Type}

namespace Merge

/-- The number of looks that one run may take, beyond what any process can live to see. -/
def looks : Nat := UInt64.size

def detach (hub : Place σ (Hub α)) : σ → σ :=
  hub.modify Hub.detach

/-- Goes on in a turn that has some allowance left, and stays attached until then. -/
def afford [Host σ] (hub : Place σ (Hub α)) (next : Flow σ α) : Flow σ α :=
  fun state =>
    if 0 < Host.allowance state then next state
    else .waiting (Wait.turn.holding (detach hub)) next state

/-- What a consumer does that waited and goes on: a signal is taken, and only cancellation costs. -/
def answer [Host σ] (hub : Place σ (Hub α)) (state : σ) : σ :=
  if (hub.get state).signal.isCalled then hub.modify Hub.hear state
  else Host.spend (hub.modify Hub.unlisten state)

/-- Waits for a signal of the hub or for cancellation, whichever comes first. -/
def await [Host σ] (hub : Place σ (Hub α)) (cancellation : Cancellation σ) (next : Flow σ α) :
    Flow σ α :=
  fun state =>
    match hub.step Hub.listen state with
    | (true, after) => next after
    | (false, after) =>
        if cancellation.isCancelled after then next (answer hub after)
        else
          let called := cancellation.wait (cancellation.flag.get after).version
          .waiting ⟨none, fun s => (hub.get s).signal.isCalled || called.opens s, detach hub⟩
            (afford hub fun s => next (answer hub s)) after

/-- The consumer. It waits for a signal of the hub or for cancellation, whichever comes first, and
then looks again. -/
def consume [Host σ] (hub : Place σ (Hub α)) (cancellation : Cancellation σ) : Nat → Flow σ α
  | 0, state => .waiting (Wait.forever.holding (detach hub)) Flow.empty state
  | left + 1, state =>
      match hub.step (Hub.look (cancellation.isCancelled state)) state with
      | (.cancelled dropped, after) => .ended (Host.trace (.mergeCancelled dropped) after)
      | (.item value, after) => .item value (consume hub cancellation left) (detach hub) after
      | (.finished, after) => .ended after
      | (.waits, after) =>
          afford hub (await hub cancellation (consume hub cancellation left)) after

/-- Pushes an item. Without a consumer the input says that it stops. -/
def deliver [Host σ] (hub : Place σ (Hub α)) (value : α) (state : σ) : Bool × σ :=
  match hub.step (·.push value) state with
  | (true, after) => (true, after)
  | (false, after) => (false, Host.trace .inputStopped after)

/-- The task of one input. The feed is started inside it, so a panic of the start ends the input
like any other. -/
def input [Host σ] (hub : Place σ (Hub α)) (index : Nat) (feed : Feed σ α) : σ → Task σ :=
  fun state =>
    let finish := fun payload => hub.modify (Hub.checkOut index payload)
    match feed.start state with
    | (.ok flow, after) => (flow after).toTask (deliver hub) finish
    | (.error payload, after) => .done (finish (some payload) after)

def recordPanic [Host σ] (hub : Place σ (Hub α)) (state : σ) (index : Nat) : σ :=
  match (hub.get state).panicOf index with
  | none => state
  | some payload =>
      let error := Error.ofPanic payload
      Host.trace (.inputPanicked index error) (Host.record error state)

/-- Everything that happens once all inputs have ended. -/
def wrapUp [Host σ] (hub : Place σ (Hub α)) (inputs : Nat) (state : σ) : σ :=
  let recorded := (List.range inputs).foldl (recordPanic hub) state
  hub.modify Hub.close (Host.trace .inputsFinished recorded)

/-- Notices that one more input has ended than those seen. Noticing costs. -/
def nextEnd [Host σ] (hub : Place σ (Hub α)) (seen : Nat) : Future σ Unit :=
  fun state =>
    let ended := fun s => decide (seen < (hub.get s).ends.length)
    if ended state then Future.pay state else .waiting ⟨none, ended, id⟩ Future.pay state

/-- Waits for the given number of inputs to end after those seen. -/
def endsAfter [Host σ] (hub : Place σ (Hub α)) (seen : Nat) : Nat → Future σ Unit
  | 0 => return
  | left + 1 => do
      nextEnd hub seen
      endsAfter hub (seen + 1) left

def supervisor [Host σ] (hub : Place σ (Hub α)) (inputs : Nat) : σ → Task σ :=
  fun state => (endsAfter hub 0 inputs state).toTask fun () => wrapUp hub inputs

def flow [Host σ] (hub : Place σ (Hub α)) (inputs : List (Feed σ α))
    (cancellation : Cancellation σ) : Flow σ α :=
  fun state =>
    let tasks := inputs.zipIdx.map fun (feed, index) => input hub index feed
    Flow.spawning (tasks ++ [supervisor hub inputs.length]) (consume hub cancellation looks)
      (Host.trace (.mergeStarted inputs.length) state)

end Merge

/-- The items of all inputs as they come, until the scope is cancelled. -/
def Feed.merge [Host σ] (hubs : Arena σ (Hub α)) (inputs : List (Feed σ α)) (scope : Scope σ) :
    Feed σ α where
  start := do
    let hub ← hubs.fresh Hub.new
    return Merge.flow hub inputs scope.cancellation

/-- A merge in a scope of its own, which is never cancelled. -/
def Feed.mergeAll [Host σ] (hubs : Arena σ (Hub α)) (flags : Arena σ Flag)
    (inputs : List (Feed σ α)) : StateM σ (Feed σ α) := do
  return .merge hubs inputs (← Scope.new flags)

end Deferred
