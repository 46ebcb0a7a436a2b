import Deferred.Error
import Deferred.Queue
import Deferred.Signal

/-! The hub of one merged run: the items that are on their way, a signal for the consumer, and how
each input has ended. The hub starts signalled. Inputs push for as long as the consumer is
attached. -/

namespace Deferred

structure Hub (α : Type) where
  queue : Queue α
  signal : Signal
  running : Bool
  attached : Bool
  ends : List (Nat × Option Payload)

/-- What the consumer finds when it looks. -/
inductive Turn (α : Type) where
  | cancelled (dropped : Nat)
  | item (value : α)
  | finished
  | waits

namespace Hub

variable {α : Type}

def new : Hub α := ⟨.empty, .given, true, true, []⟩

instance : Inhabited (Hub α) := ⟨new⟩

def enqueue (hub : Hub α) (value : α) : Hub α :=
  { hub with queue := hub.queue.push value }

def notify (hub : Hub α) : Hub α :=
  { hub with signal := hub.signal.give }

/-- Takes an item from an input, unless the consumer is gone. -/
def push (hub : Hub α) (value : α) : Bool × Hub α :=
  if hub.attached then (true, (hub.enqueue value).notify) else (false, hub)

def pop (hub : Hub α) : Option α × Hub α :=
  let (value, rest) := hub.queue.pop
  (value, { hub with queue := rest })

/-- Takes the signal that was kept, or begins to wait for the next one. -/
def listen (hub : Hub α) : Bool × Hub α :=
  let (heard, signal) := hub.signal.listen
  (heard, { hub with signal })

def hear (hub : Hub α) : Hub α :=
  { hub with signal := hub.signal.answer }

/-- The consumer stops waiting for a signal. -/
def unlisten (hub : Hub α) : Hub α :=
  { hub with signal := hub.signal.leave }

/-- The consumer is gone, and with it its wait for a signal. -/
def detach (hub : Hub α) : Hub α :=
  { hub with attached := false, signal := hub.signal.leave }

/-- Notes the end of an input, with what it panicked with if it did. -/
def checkOut (input : Nat) (payload : Option Payload) (hub : Hub α) : Hub α :=
  { hub with ends := hub.ends ++ [(input, payload)] }

def panicOf (hub : Hub α) (input : Nat) : Option Payload :=
  (hub.ends.lookup input).join

def stop (hub : Hub α) : Hub α :=
  { hub with running := false }

/-- Tells the consumer that nothing more will come. -/
def close (hub : Hub α) : Hub α :=
  if hub.attached then hub.stop.notify else hub

/-- The consumer's look: cancellation goes first, then the queue. When nothing runs any more the
queue is looked at once more, since what was pushed before the close is seen after it. -/
def look (cancelled : Bool) (hub : Hub α) : Turn α × Hub α :=
  if cancelled then (.cancelled hub.queue.length, hub.detach)
  else match hub.pop with
    | (some value, rest) => (.item value, rest)
    | (none, idle) =>
        if idle.running then (.waits, idle)
        else match idle.pop with
          | (some value, rest) => (.item value, rest)
          | (none, spent) => (.finished, spent.detach)

@[simp] theorem toList_enqueue (hub : Hub α) (value : α) :
    (hub.enqueue value).queue.toList = hub.queue.toList ++ [value] :=
  Queue.toList_push hub.queue value

theorem toList_of_pop {hub rest : Hub α} {value : Option α} (popped : hub.pop = (value, rest)) :
    hub.queue.toList = value.toList ++ rest.queue.toList := by
  simp only [pop, Prod.mk.injEq] at popped
  obtain ⟨rfl, rfl⟩ := popped
  rw [Queue.pop_fst, Queue.toList_pop_snd]
  cases hub.queue.toList <;> rfl

/-- A pop touches nothing but the queue. -/
theorem eq_of_pop {hub rest : Hub α} {value : Option α} (popped : hub.pop = (value, rest)) :
    rest = { hub with queue := rest.queue } := by
  simp only [pop, Prod.mk.injEq] at popped
  obtain ⟨-, rfl⟩ := popped
  rfl

theorem eq_nil_of_pop {hub rest : Hub α} (popped : hub.pop = (none, rest)) :
    rest.queue.toList = [] := by
  have empty := congrArg Prod.fst popped
  simp only [pop, Queue.pop_fst, List.head?_eq_none_iff] at empty
  have same := toList_of_pop popped
  rw [empty] at same
  exact same.symm

/-- Listening touches nothing but the signal. -/
theorem eq_of_listen {hub rest : Hub α} {heard : Bool} (listened : hub.listen = (heard, rest)) :
    hub.signal.listen = (heard, rest.signal) ∧ rest = { hub with signal := rest.signal } := by
  simp only [listen, Prod.mk.injEq] at listened
  obtain ⟨rfl, rfl⟩ := listened
  exact ⟨rfl, rfl⟩

end Hub
end Deferred
