import Deferred.Code

/-! Suspended computations as trees. Polling a future runs it until it is ready, panics, has to
wait or spawns a task; what is left is again a function of the state, so a future is its own
continuation. Suspension is the only thing that a tree records: effects between two suspensions
have happened by the time the next node is reached. Monad laws hold as equalities of trees. -/

namespace Deferred

variable {σ α β : Type}

/-- Why a computation is suspended. It may be resumed in any state that `opens`; `deadline` is the
time at which the clock alone will open it, and `release` gives back what the suspended
computation holds if it is dropped instead. -/
structure Wait (σ : Type) where
  deadline : Option Nat
  opens : σ → Bool
  release : σ → σ

namespace Wait

/-- A wait that any state opens, and that holds nothing. -/
def passed : Wait σ := ⟨none, fun _ => true, id⟩

def forever : Wait σ := ⟨none, fun _ => false, id⟩

def clock [Host σ] (time : Nat) : Wait σ :=
  ⟨some time, fun state => decide (time ≤ Host.now state), id⟩

def earlier : Option Nat → Option Nat → Option Nat
  | some a, some b => some (min a b)
  | some a, none => some a
  | none, b => b

/-- Waiting for the next turn, if this one has no allowance left. -/
def turn [Host σ] : Wait σ :=
  ⟨none, fun state => decide (0 < Host.allowance state), id⟩

/-- Waiting for whichever opens first, and holding what both hold. -/
def either (first second : Wait σ) : Wait σ :=
  ⟨earlier first.deadline second.deadline,
    fun state => first.opens state || second.opens state,
    fun state => second.release (first.release state)⟩

/-- Nothing but the next turn is missing. -/
def isSpent [Host σ] (wait : Wait σ) (state : σ) : Bool :=
  wait.opens (Host.refill state) && !wait.opens state

def holding (wait : Wait σ) (release : σ → σ) : Wait σ :=
  { wait with release := fun state => release (wait.release state) }

end Wait

/-- A spawned task runs by itself and answers to nobody: its panics end inside it. -/
inductive Task (σ : Type) where
  | done (state : σ)
  | waiting (wait : Wait σ) (resume : σ → Task σ) (state : σ)
  | spawn (child : σ → Task σ) (rest : σ → Task σ) (state : σ)

inductive Poll (σ α : Type) where
  | ready (value : α) (state : σ)
  | panic (payload : Payload) (state : σ)
  | waiting (wait : Wait σ) (resume : σ → Poll σ α) (state : σ)
  | spawn (child : σ → Task σ) (rest : σ → Poll σ α) (state : σ)

namespace Poll

def bind : Poll σ α → (α → σ → Poll σ β) → Poll σ β
  | ready value state, next => next value state
  | panic payload state, _ => panic payload state
  | waiting wait resume state, next => waiting wait (fun s => (resume s).bind next) state
  | spawn child rest state, next => spawn child (fun s => (rest s).bind next) state

def map (f : α → β) (poll : Poll σ α) : Poll σ β :=
  poll.bind fun value state => ready (f value) state

theorem bind_ready (poll : Poll σ α) : poll.bind ready = poll := by
  induction poll with
  | ready => rfl
  | panic => rfl
  | waiting wait resume state ih => simp only [bind]; congr 1; funext s; exact ih s
  | spawn child rest state ih => simp only [bind]; congr 1; funext s; exact ih s

theorem bind_assoc {γ : Type} (poll : Poll σ α) (next : α → σ → Poll σ β)
    (last : β → σ → Poll σ γ) :
    (poll.bind next).bind last = poll.bind fun value state => (next value state).bind last := by
  induction poll with
  | ready => rfl
  | panic => rfl
  | waiting wait resume state ih => simp only [bind]; congr 1; funext s; exact ih s
  | spawn child rest state ih => simp only [bind]; congr 1; funext s; exact ih s

/-- Captures a panic at the point where it happens and records it once. -/
def contained [Host σ] : Poll σ α → Poll σ (Except Error α)
  | ready value state => ready (.ok value) state
  | panic payload state =>
      let error := Error.ofPanic payload
      ready (.error error) (Host.record error state)
  | waiting wait resume state => waiting wait (fun s => (resume s).contained) state
  | spawn child rest state => spawn child (fun s => (rest s).contained) state

/-- Runs to the end as a task, which then acts on the state. -/
def toTask (finish : α → σ → σ) : Poll σ α → Task σ
  | ready value state => .done (finish value state)
  | panic _ state => .done state
  | waiting wait resume state => .waiting wait (fun s => (resume s).toTask finish) state
  | spawn child rest state => .spawn child (fun s => (rest s).toTask finish) state

/-- Holds something while the computation lasts: `release` runs when it is dropped or panics. -/
def holding (release : σ → σ) : Poll σ α → Poll σ α
  | ready value state => ready value state
  | panic payload state => panic payload (release state)
  | waiting wait resume state =>
      waiting (wait.holding release) (fun s => (resume s).holding release) state
  | spawn child rest state => spawn child (fun s => (rest s).holding release) state

end Poll

/-- A computation that has not been polled yet. Dropping it has no effect. -/
def Future (σ α : Type) : Type := σ → Poll σ α

namespace Future

instance : Monad (Future σ) where
  pure value := fun state => .ready value state
  bind future next := fun state => (future state).bind next

instance : LawfulMonad (Future σ) :=
  LawfulMonad.mk' _
    (fun future => funext fun state => Poll.bind_ready (future state))
    (fun _ _ => rfl)
    (fun future _ _ => funext fun state => Poll.bind_assoc (future state) _ _)

def ofCode (code : Code σ α) : Future σ α :=
  fun state =>
    match code state with
    | (.ok value, after) => .ready value after
    | (.error payload, after) => .panic payload after

instance : MonadLift (Code σ) (Future σ) := ⟨ofCode⟩

def panic (payload : Payload) : Future σ α :=
  fun state => .panic payload state

def record [Host σ] (error : Error) : Future σ Error :=
  fun state => .ready error (Host.record error state)

def trace [Host σ] (event : Event) : Future σ Unit :=
  fun state => .ready () (Host.trace event state)

def contained [Host σ] (future : Future σ α) : Future σ (Except Error α) :=
  fun state => (future state).contained

/-- No state opens the wait, so what would follow it is never reached. -/
def never : Future σ α :=
  fun state => .waiting .forever (panic (.fixed "resumed a wait that never opens")) state

/-- Goes on in a turn that has some allowance left. -/
def afford [Host σ] : Future σ Unit :=
  fun state =>
    if 0 < Host.allowance state then .ready () state
    else .waiting .turn (fun s => .ready () s) state

/-- Takes from the allowance what the end of a wait costs. -/
def spend [Host σ] : Future σ Unit :=
  fun state => .ready () (Host.spend state)

def pay [Host σ] : Future σ Unit := do
  afford
  spend

/-- Waits the given number of milliseconds from the first poll. Even an empty wait costs. -/
def sleep [Host σ] (millis : Nat) : Future σ Unit :=
  fun state =>
    if millis = 0 then pay state
    else .waiting (.clock (Host.now state + millis)) pay state

end Future
end Deferred
