import Mathlib.Logic.Relation
import Deferred.Executor
import Deferred.Merge

/-! Polls of a task and of a consumer, which go as far as they can, and the places that a merged run
works on. The places of the hub and of the flag are apart from each other and from the host, and a
feed leaves the hub alone. -/

namespace Deferred

variable {σ α : Type}

/-! ### Polls -/

namespace Task

/-- What is left of a task after a poll. A task that spawns another goes on in the same poll. -/
def job : Task σ → Option (Job σ)
  | done _ => none
  | waiting wait resume _ => some ⟨wait, resume⟩
  | spawn _ rest state => (rest state).job

def state : Task σ → σ
  | done state => state
  | waiting _ _ state => state
  | spawn _ rest state => (rest state).state

end Task

namespace Items

/-- Where a poll leaves the run. -/
def cursor : Items σ α → Option (Cursor σ α)
  | item _ rest release _ => some ⟨{ Wait.passed with release }, rest⟩
  | ended _ => none
  | panic _ _ _ => none
  | waiting wait resume _ => some ⟨wait, resume⟩
  | spawn _ rest state => (rest state).cursor

def state : Items σ α → σ
  | item _ _ _ state => state
  | ended state => state
  | panic _ release state => release state
  | waiting _ _ state => state
  | spawn _ rest state => (rest state).state

/-- The item with which a poll ends, if it ends with one. -/
def yields : Items σ α → List α
  | item value _ _ _ => [value]
  | ended _ => []
  | panic _ _ _ => []
  | waiting _ _ _ => []
  | spawn _ rest state => (rest state).yields

/-- The tasks that a poll spawns. -/
def children : Items σ α → List (σ → Task σ)
  | item _ _ _ _ => []
  | ended _ => []
  | panic _ _ _ => []
  | waiting _ _ _ => []
  | spawn child rest state => child :: (rest state).children

end Items

theorem Flow.spawning_apply (tasks : List (σ → Task σ)) (flow : Flow σ α) (state : σ) :
    (Flow.spawning tasks flow state).cursor = (flow state).cursor ∧
      (Flow.spawning tasks flow state).state = (flow state).state ∧
      (Flow.spawning tasks flow state).yields = (flow state).yields ∧
      (Flow.spawning tasks flow state).children = tasks ++ (flow state).children := by
  induction tasks with
  | nil => exact ⟨rfl, rfl, rfl, rfl⟩
  | cons task rest ih =>
    obtain ⟨cursor, after, yields, children⟩ := ih
    exact ⟨cursor, after, yields, congrArg (task :: ·) children⟩

/-- A flag that is raised any number of times. -/
def Flag.Becomes : Flag → Flag → Prop :=
  Relation.ReflTransGen fun flag next => next = flag.raise

theorem Flag.Becomes.raised {flag next : Flag} (becomes : flag.Becomes next)
    (raised : flag.raised = true) : next.raised = true := by
  induction becomes with
  | refl => exact raised
  | tail _ step => rw [step]; rfl

namespace Merge

section places

variable (place : Place σ (Hub α)) (cancellation : Cancellation σ)

/-- Code that leaves the hub alone, and touches the flag at most to raise it. -/
structure Spares (before after : σ) : Prop where
  hub : place.get after = place.get before
  flag : (cancellation.flag.get before).Becomes (cancellation.flag.get after)

/-- The places are apart, and the host touches neither. -/
structure Apart [Host σ] : Prop where
  flag_set : ∀ hub state, cancellation.flag.get (place.set hub state) = cancellation.flag.get state
  hub_allow : ∀ count state, place.get (Host.allow count state) = place.get state
  flag_allow : ∀ count state,
    cancellation.flag.get (Host.allow count state) = cancellation.flag.get state
  hub_record : ∀ error state, place.get (Host.record error state) = place.get state
  flag_record : ∀ error state,
    cancellation.flag.get (Host.record error state) = cancellation.flag.get state
  hub_trace : ∀ event state, place.get (Host.trace event state) = place.get state
  flag_trace : ∀ event state,
    cancellation.flag.get (Host.trace event state) = cancellation.flag.get state

/-- A run of a feed that spares the hub from this state on. -/
inductive ItemsSpare : σ → Items σ α → Prop where
  | item {start value rest release state} (spares : Spares place cancellation start state)
      (releases : ∀ s, Spares place cancellation s (release s))
      (resumes : ∀ s, ItemsSpare s (rest s)) : ItemsSpare start (.item value rest release state)
  | ended {start state} (spares : Spares place cancellation start state) :
      ItemsSpare start (.ended state)
  | panic {start payload release state} (spares : Spares place cancellation start state)
      (releases : ∀ s, Spares place cancellation s (release s)) :
      ItemsSpare start (.panic payload release state)
  | waiting {start wait resume state} (spares : Spares place cancellation start state)
      (resumes : ∀ s, ItemsSpare s (resume s)) : ItemsSpare start (.waiting wait resume state)
  | spawn {start child rest state} (spares : Spares place cancellation start state)
      (resumes : ∀ s, ItemsSpare s (rest s)) : ItemsSpare start (.spawn child rest state)

end places

theorem Spares.trans {place : Place σ (Hub α)} {cancellation : Cancellation σ} {s t u : σ}
    (first : Spares place cancellation s t) (second : Spares place cancellation t u) :
    Spares place cancellation s u :=
  ⟨second.hub.trans first.hub, first.flag.trans second.flag⟩

theorem Spares.refl {place : Place σ (Hub α)} {cancellation : Cancellation σ} (state : σ) :
    Spares place cancellation state state :=
  ⟨rfl, .refl⟩

/-- A feed of given items spares everything. -/
theorem ItemsSpare.ofList (place : Place σ (Hub α)) (cancellation : Cancellation σ)
    (values : List α) :
    ∀ state, ItemsSpare place cancellation state (Flow.ofList values state) := by
  induction values with
  | nil => exact fun state => .ended (.refl state)
  | cons value values ih => exact fun state => .item (.refl state) .refl ih

theorem Apart.modify [Host σ] {place : Place σ (Hub α)} {cancellation : Cancellation σ}
    (apart : Apart place cancellation) (f : Hub α → Hub α) (state : σ) :
    place.get (place.modify f state) = f (place.get state) ∧
      cancellation.flag.get (place.modify f state) = cancellation.flag.get state :=
  ⟨place.get_set _ state, apart.flag_set _ state⟩

end Merge
end Deferred
