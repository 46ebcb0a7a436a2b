import Deferred.Search
import Deferred.Proofs.Boundary.Futures

/-! Attempts and searches in sequence. Both are actions whose results carry a value or end the
chain; what is said here of such results in general is said of both at once. Two actions are alike
when running them and awaiting the outcome is the same from every state. It is the same tree: the
same effects up to each wait, the same wait, the same panic or outcome, and the same state left. All
that is kept in the state is kept alike, be it a log, a counter of calls or a note of the user's.

The laws of sequencing hold for code that has effects and panics, because a panic is contained where
the code is called: on either side of a law it is recorded once and becomes the same failure. -/

namespace Deferred

variable {σ α β γ ρ τ : Type}

namespace Action

/-- Run and awaited, the two actions cannot be told from each other. -/
def Alike (action other : Action σ ρ) : Prop :=
  ∀ state, action.awaited state = other.awaited state

theorem awaited_andThen (action : Action σ ρ) (next : ρ → Future σ τ) :
    (action.andThen next).awaited = action.awaited >>= next := rfl

theorem Alike.of_awaited {action other : Action σ ρ} (same : action.awaited = other.awaited) :
    action.Alike other :=
  congrFun same

end Action

/-- Wherever it is called, the code returns. -/
def Code.NeverPanics (code : Code σ α) : Prop :=
  ∀ state, ∃ value after, code state = (.ok value, after)

protected theorem Code.NeverPanics.pure (value : α) : (pure value : Code σ α).NeverPanics :=
  fun state => ⟨value, state, rfl⟩

namespace Future

theorem ofCode_bind (code : Code σ α) (next : α → Code σ β) :
    ofCode (code >>= next) = ofCode code >>= fun value => ofCode (next value) := by
  funext state
  show _ = (ofCode code state).bind _
  rcases answer : code state with ⟨payload | value, after⟩
  · unfold ofCode
    rw [Code.bind_of_error answer, answer]
    rfl
  · unfold ofCode
    rw [Code.bind_of_ok answer, answer]
    rfl

variable [Host σ]

/-- Contained code as a future. -/
def caught (code : Code σ α) : Future σ (Except Error α) :=
  liftM (contain code)

theorem caught_then (code : Code σ α) (rest : Except Error α → Future σ β) (state : σ) :
    (caught code >>= rest) state = rest (contain code state).1 (contain code state).2 := rfl

/-- A panic of either part is recorded once, and one of the first part ends the whole. -/
theorem caught_bind (code : Code σ α) (next : α → Code σ β) :
    caught (code >>= next) = caught code >>= fun
      | .ok value => caught (next value)
      | .error panic => pure (.error panic) := by
  funext state
  have whole : caught (code >>= next) state =
      .ready (contain (code >>= next) state).1 (contain (code >>= next) state).2 := rfl
  rw [caught_then, whole]
  unfold contain
  rcases answer : code state with ⟨payload | value, after⟩
  · rw [Code.bind_of_error answer]
    rfl
  · rw [Code.bind_of_ok answer]
    rfl

end Future

/-! ### Results that carry a value -/

/-- How a result carries a value, how a failure becomes a result, and how a chain goes on: after a
result without a value it ends with what it has come to. -/
structure Carrier (σ : Type) (F : Type → Type) where
  value : ∀ {α : Type}, α → F α
  failure : ∀ {α : Type}, Error → F α
  follow : ∀ {α β : Type}, F α → (α → Future σ (F β)) → Future σ (F β)
  follow_value : ∀ {α β : Type} (a : α) (next : α → Future σ (F β)), follow (value a) next = next a
  follow_failure : ∀ {α β : Type} (error : Error) (next : α → Future σ (F β)),
    follow (failure error) next = pure (failure error)
  follow_pure : ∀ {α : Type} (result : F α), follow result (fun a => pure (value a)) = pure result
  follow_assoc : ∀ {α β γ : Type} (result : F α) (next : α → Future σ (F β))
    (last : β → Future σ (F γ)),
    (follow result next >>= fun middle => follow middle last) =
      follow result fun a => next a >>= fun middle => follow middle last

def Verdict.carrier : Carrier σ Verdict where
  value := .success
  failure := .failure
  follow := bindM
  follow_value _ _ := rfl
  follow_failure _ _ := rfl
  follow_pure result := by cases result <;> rfl
  follow_assoc result _ _ := by cases result <;> rfl

def Finding.carrier : Carrier σ Finding where
  value := .found
  failure := .failed
  follow := bindM
  follow_value _ _ := rfl
  follow_failure _ _ := rfl
  follow_pure result := by cases result <;> rfl
  follow_assoc result _ _ := by cases result <;> rfl

namespace Carrier

variable [Host σ] {F : Type → Type} (carrier : Carrier σ F)

/-- Calls the code, and then awaits the action that it returns. -/
def enter (next : α → Code σ (Action σ (F β))) (a : α) : Future σ (F β) := do
  match ← Future.caught (next a) with
  | .ok following => following.awaited
  | .error panic => return carrier.failure panic

def bind (action : Action σ (F α)) (next : α → Code σ (Action σ (F β))) : Action σ (F β) :=
  action.andThen fun result => carrier.follow result (carrier.enter next)

/-- What has become of contained code. -/
def outcome : Except Error α → F α
  | .ok a => carrier.value a
  | .error panic => carrier.failure panic

/-- Calls the code for its value. -/
def apply (f : α → Code σ β) (a : α) : Future σ (F β) := do
  return carrier.outcome (← Future.caught (f a))

def map (action : Action σ (F α)) (f : α → Code σ β) : Action σ (F β) :=
  action.andThen fun result => carrier.follow result (carrier.apply f)

/-- The action that has this value. -/
def unit (a : α) : Action σ (F α) :=
  .lazily (pure (carrier.value a))

variable {carrier}

/-- Entering a longer chain is entering the first part of it and following that. -/
theorem enter_bind (f : α → Code σ (Action σ (F β))) (g : β → Code σ (Action σ (F γ))) (a : α) :
    (carrier.enter f a >>= fun middle => carrier.follow middle (carrier.enter g)) =
      carrier.enter (fun a => do return carrier.bind (← f a) g) a := by
  unfold enter
  rw [Future.caught_bind, bind_assoc, bind_assoc]
  refine congrArg (Future.caught (f a) >>= ·) (funext fun answer => ?_)
  cases answer with
  | ok following => rfl
  | error panic => exact carrier.follow_failure panic _

theorem bind_bind (action : Action σ (F α)) (f : α → Code σ (Action σ (F β)))
    (g : β → Code σ (Action σ (F γ))) :
    (carrier.bind (carrier.bind action f) g).Alike
      (carrier.bind action fun a => do return carrier.bind (← f a) g) := by
  refine .of_awaited ?_
  unfold bind
  simp only [Action.awaited_andThen]
  rw [bind_assoc]
  refine congrArg (action.awaited >>= ·) (funext fun result => ?_)
  rw [carrier.follow_assoc]
  exact congrArg (carrier.follow result) (funext fun a => enter_bind f g a)

theorem bind_unit (action : Action σ (F α)) :
    (carrier.bind action fun a => pure (carrier.unit a)).Alike action := by
  refine .of_awaited ?_
  calc
    _ = action.awaited >>= fun result =>
        carrier.follow result fun a => pure (carrier.value a) := rfl
    _ = action.awaited >>= pure :=
      congrArg (action.awaited >>= ·) (funext carrier.follow_pure)
    _ = action.awaited := bind_pure _

/-- What the code returns goes on from where the call ended. -/
theorem enter_of_ok {next : α → Code σ (Action σ (F β))} {a : α} {state after : σ}
    {following : Action σ (F β)} (called : next a state = (.ok following, after)) :
    carrier.enter next a state = following.awaited after := by
  rw [enter, Future.caught_then, contain, called]

theorem enter_of_error {next : α → Code σ (Action σ (F β))} {a : α} {state after : σ}
    {payload : Payload} (called : next a state = (.error payload, after)) :
    carrier.enter next a state =
      .ready (carrier.failure (.ofPanic payload)) (Host.record (.ofPanic payload) after) := by
  rw [enter, Future.caught_then, contain, called]
  rfl

theorem unit_bind (a : α) (next : α → Code σ (Action σ (F β))) :
    (carrier.bind (carrier.unit a) next).awaited = carrier.enter next a :=
  carrier.follow_value a _

/-- Code that is applied to what other code makes is applied to nothing where that panics. -/
theorem apply_bind (f : α → Code σ β) (g : β → Code σ γ) (a : α) :
    (carrier.apply f a >>= fun middle => carrier.follow middle (carrier.apply g)) =
      carrier.apply (fun a => f a >>= g) a := by
  unfold apply
  rw [Future.caught_bind, bind_assoc, bind_assoc]
  refine congrArg (Future.caught (f a) >>= ·) (funext fun answer => ?_)
  cases answer with
  | ok b => exact carrier.follow_value b _
  | error panic => exact carrier.follow_failure panic _

theorem map_map (action : Action σ (F α)) (f : α → Code σ β) (g : β → Code σ γ) :
    (carrier.map (carrier.map action f) g).Alike (carrier.map action fun a => f a >>= g) := by
  refine .of_awaited ?_
  unfold map
  simp only [Action.awaited_andThen]
  rw [bind_assoc]
  refine congrArg (action.awaited >>= ·) (funext fun result => ?_)
  rw [carrier.follow_assoc]
  exact congrArg (carrier.follow result) (funext fun a => apply_bind f g a)

theorem map_pure (action : Action σ (F α)) : (carrier.map action pure).Alike action :=
  bind_unit action

end Carrier

/-! ### The laws -/

/-- The laws of sequencing, for the operations of one kind of action. -/
structure Sequencing [Host σ] (F : Type → Type) (success : ∀ {α : Type}, α → Action σ (F α))
    (failure : ∀ {α : Type}, Error → F α)
    (map : ∀ {α β : Type}, Action σ (F α) → (α → Code σ β) → Action σ (F β))
    (bind : ∀ {α β : Type}, Action σ (F α) → (α → Code σ (Action σ (F β))) → Action σ (F β)) :
    Prop where
  bind_bind : ∀ {α β γ : Type} (action : Action σ (F α)) (f : α → Code σ (Action σ (F β)))
    (g : β → Code σ (Action σ (F γ))),
    (bind (bind action f) g).Alike (bind action fun a => do return bind (← f a) g)
  map_map : ∀ {α β γ : Type} (action : Action σ (F α)) (f : α → Code σ β) (g : β → Code σ γ),
    (map (map action f) g).Alike (map action fun a => do g (← f a))
  bind_success : ∀ {α : Type} (action : Action σ (F α)),
    (bind action fun a => return success a).Alike action
  map_id : ∀ {α : Type} (action : Action σ (F α)), (map action fun a => return a).Alike action
  /-- The function is called in the state that the whole starts from. What it returns goes on from
  where the call ended, and a panic of it is a failure that is recorded once. -/
  success_bind : ∀ {α β : Type} (a : α) (f : α → Code σ (Action σ (F β))) (state : σ),
    (bind (success a) f).awaited state =
      match f a state with
      | (.ok following, after) => following.awaited after
      | (.error payload, after) =>
          .ready (failure (.ofPanic payload)) (Host.record (.ofPanic payload) after)

/-- Operations that are the carrier's keep the laws. -/
theorem Carrier.sequencing [Host σ] {F : Type → Type} (carrier : Carrier σ F)
    {map : ∀ {α β : Type}, Action σ (F α) → (α → Code σ β) → Action σ (F β)}
    {bind : ∀ {α β : Type}, Action σ (F α) → (α → Code σ (Action σ (F β))) → Action σ (F β)}
    (map_eq : ∀ {α β : Type} (action : Action σ (F α)) (f : α → Code σ β),
      map action f = carrier.map action f)
    (bind_eq : ∀ {α β : Type} (action : Action σ (F α)) (next : α → Code σ (Action σ (F β))),
      bind action next = carrier.bind action next) :
    Sequencing F carrier.unit carrier.failure map bind where
  bind_bind action f g := by
    simp only [bind_eq]
    exact Carrier.bind_bind action f g
  map_map action f g := by
    simp only [map_eq]
    exact Carrier.map_map action f g
  bind_success action := by
    rw [bind_eq]
    exact Carrier.bind_unit action
  map_id action := by
    rw [map_eq]
    exact Carrier.map_pure action
  success_bind a f state := by
    rw [bind_eq, Carrier.unit_bind]
    rcases called : f a state with ⟨payload | following, after⟩
    · exact Carrier.enter_of_error called
    · exact Carrier.enter_of_ok called

theorem Attempt.bind_eq [Host σ] (attempt : Attempt σ α) (next : α → Code σ (Attempt σ β)) :
    attempt.bind next = Verdict.carrier.bind attempt next := by
  refine congrArg attempt.andThen (funext fun verdict => ?_)
  cases verdict with
  | success a =>
    refine congrArg (Future.caught (next a) >>= ·) (funext fun answer => ?_)
    cases answer <;> rfl
  | failure => rfl

theorem Attempt.map_eq [Host σ] (attempt : Attempt σ α) (f : α → Code σ β) :
    attempt.map f = Verdict.carrier.map attempt f := by
  refine congrArg attempt.andThen (funext fun verdict => ?_)
  cases verdict with
  | success a =>
    refine congrArg (Future.caught (f a) >>= ·) (funext fun answer => ?_)
    cases answer <;> rfl
  | failure => rfl

theorem Search.bind_eq [Host σ] (search : Search σ α) (next : α → Code σ (Search σ β)) :
    search.bind next = Finding.carrier.bind search next := by
  refine congrArg search.andThen (funext fun finding => ?_)
  cases finding with
  | found a =>
    refine congrArg (Future.caught (next a) >>= ·) (funext fun answer => ?_)
    cases answer <;> rfl
  | absent => rfl
  | failed => rfl

theorem Search.map_eq [Host σ] (search : Search σ α) (f : α → Code σ β) :
    search.map f = Finding.carrier.map search f := by
  refine congrArg search.andThen (funext fun finding => ?_)
  cases finding with
  | found a =>
    refine congrArg (Future.caught (f a) >>= ·) (funext fun answer => ?_)
    cases answer <;> rfl
  | absent => rfl
  | failed => rfl

/-- Attempts and searches are monads up to what can be seen of a run, with effects and panics. -/
theorem sequencing_of_attempts_and_searches [Host σ] :
    Sequencing (σ := σ) Verdict Attempt.success .failure Attempt.map Attempt.bind ∧
      Sequencing (σ := σ) Finding Search.found .failed Search.map Search.bind :=
  ⟨Verdict.carrier.sequencing Attempt.map_eq Attempt.bind_eq,
    Finding.carrier.sequencing Search.map_eq Search.bind_eq⟩

end Deferred
