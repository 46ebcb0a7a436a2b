import Deferred.Proofs.Boundary.History
import Deferred.Proofs.Notebook

/-! What a call does. A run of an action begins with its call, which hands back a future, and the
future may never be polled. The effects of a call are told by the form of the action alone: a leaf
builds its future, a join calls both sides in turn, a sink opens its feed, and everything else puts
off all that it does. A feed that is opened calls the factories of its leaves from left to right; a
merge only takes a hub of its own and leaves its inputs closed. -/

namespace Deferred

variable {σ : Type}

/-- One thing that is done in a call. A panic of the user's code ends what is listed after it, up to
the end of the containment that it happens in. -/
inductive Effect (σ : Type) : Type 1 where
  | runs {α : Type} (code : Code σ α)
  | hub {α : Type} (hubs : Arena σ (Hub α))
  | contained (effects : List (Effect σ))

/-- The code without its value. -/
def Code.silent {α : Type} (code : Code σ α) : Code σ Unit :=
  (fun _ => ()) <$> code

namespace Effect

section
variable [Host σ]

mutual

def perform : Effect σ → Code σ Unit
  | .runs code => code.silent
  | .hub (α := α) hubs => Code.silent (liftM (hubs.fresh (Hub.new : Hub α)))
  | .contained effects => Code.silent (liftM (contain (performAll effects)))

/-- The effects one after the other. -/
def performAll : List (Effect σ) → Code σ Unit
  | [] => pure ()
  | effect :: effects => do
      effect.perform
      performAll effects

end

/-- The state in which the effects leave the program. -/
def performed (effects : List (Effect σ)) (state : σ) : σ :=
  (performAll effects state).2

end

mutual

/-- What the view shows is left alone by the code that runs and by the hubs that are taken. -/
def Spares {τ : Type} (view : σ → τ) : Effect σ → Prop
  | .runs code => ∀ state, view (code state).2 = view state
  | .hub (α := α) hubs => ∀ state, view (hubs.fresh (Hub.new : Hub α) state).2 = view state
  | .contained effects => AllSpare view effects

def AllSpare {τ : Type} (view : σ → τ) : List (Effect σ) → Prop
  | [] => True
  | effect :: effects => effect.Spares view ∧ AllSpare view effects

end

end Effect

namespace Code

variable {α β : Type}

theorem silent_eq (code : Code σ α) : code.silent = code >>= fun _ => pure () :=
  map_eq_pure_bind _ _

theorem silent_bind_pure (code : Code σ α) (f : α → β) :
    (code >>= fun value => pure (f value)).silent = code.silent := by
  simp [silent]

theorem silent_bind (code : Code σ α) (next : α → Code σ β) :
    (code >>= next).silent = code >>= fun value => (next value).silent := by
  simp [silent]

/-- What follows does not look at the value. -/
theorem silent_then (code : Code σ α) (next : Code σ β) :
    (code.silent >>= fun _ => next) = code >>= fun _ => next := by
  simp [silent]

theorem silent_apply (code : Code σ α) (state : σ) :
    code.silent state = ((code state).1.map fun _ => (), (code state).2) := by
  rw [silent_eq]
  cases same : code state with
  | mk result after =>
    cases result with
    | ok value => rw [bind_of_ok same]; rfl
    | error payload => rw [bind_of_error same]; rfl

/-- Containing code does the same to the state whether its value is looked at or not. -/
theorem silent_contain [Host σ] (code : Code σ α) :
    silent (liftM (contain code) : Code σ _) = silent (liftM (contain code.silent) : Code σ _) := by
  funext state
  show (Except.ok (), (contain code state).2) = (Except.ok (), (contain code.silent state).2)
  unfold contain
  rw [silent_apply]
  cases code state with
  | mk result after => cases result <;> rfl

end Code

section
variable [Host σ]

/-- The actions whose call does nothing, whatever they are made of. -/
inductive Action.Lazy : {ρ : Type} → Action σ ρ → Prop where
  | ofVerdict {α} (verdict : Verdict α) : Lazy (Attempt.ofVerdict verdict)
  | map {α β} (attempt : Attempt σ α) (f : α → Code σ β) : Lazy (attempt.map f)
  | mapError {α} (attempt : Attempt σ α) (f : Error → Code σ Error) : Lazy (attempt.mapError f)
  | bind {α β} (attempt : Attempt σ α) (next : α → Code σ (Attempt σ β)) :
      Lazy (attempt.bind next)
  | resolve {α β} (attempt : Attempt σ α) (onSuccess : α → Code σ β)
      (onFailure : Error → Code σ β) : Lazy (attempt.resolve onSuccess onFailure)
  | filter {α} (attempt : Attempt σ α) (accepts : α → Code σ Bool) : Lazy (attempt.filter accepts)
  | orElse {α} (attempt other : Attempt σ α) : Lazy (attempt.orElse other)
  | widen {α} (attempt : Attempt σ α) : Lazy attempt.widen
  | ofFinding {α} (finding : Finding α) : Lazy (Search.ofFinding finding)
  | mapSearch {α β} (search : Search σ α) (f : α → Code σ β) : Lazy (search.map f)
  | bindSearch {α β} (search : Search σ α) (next : α → Code σ (Search σ β)) :
      Lazy (search.bind next)
  | resolveSearch {α β} (search : Search σ α) (onFound : α → Code σ β)
      (onAbsent : Unit → Code σ β) (onFailed : Error → Code σ β) :
      Lazy (search.resolve onFound onAbsent onFailed)
  | filterSearch {α} (search : Search σ α) (accepts : α → Code σ Bool) :
      Lazy (search.filter accepts)
  | orElseSearch {α} (search other : Search σ α) : Lazy (search.orElse other)
  | narrow {α} (search : Search σ α) : Lazy search.narrow
  | cached {ρ} [HasFailure ρ] (latch : Place σ (Latch ρ)) (action : Action σ ρ) :
      Lazy (action.cached latch)
  | cachedAlone {ρ} [HasFailure ρ] (gate : Place σ (Gate ρ)) (action : Action σ ρ) :
      Lazy (action.cachedAlone gate)
  | retried {ρ} [HasFailure ρ] (action : Action σ ρ) (plan : RetryPlan) :
      Lazy (action.retried plan)

mutual

/-- The effects of a call, by the form of the action. -/
inductive Calling : {ρ : Type} → Action σ ρ → List (Effect σ) → Prop where
  | lazy {ρ} {action : Action σ ρ} (lazy : action.Lazy) : Calling action []
  | new {α ε} [IsError ε] (build : Code σ (Future σ (Except ε α))) :
      Calling (Attempt.new build) [.contained [.runs build]]
  | lift {α} (build : Code σ (Future σ α)) : Calling (Attempt.lift build) [.contained [.runs build]]
  | newSearch {α ε} [IsError ε] (build : Code σ (Future σ (Except ε (Option α)))) :
      Calling (Search.new build) [.contained [.runs build]]
  | liftSearch {α} (build : Code σ (Future σ (Option α))) :
      Calling (Search.lift build) [.contained [.runs build]]
  | join {α β κ γ} {left : Attempt σ α} {right : Attempt σ β} {effects more}
      (first : Calling left effects) (second : Calling right more) (keyLeft : α → Code σ κ)
      (keyRight : β → Code σ κ) (sameKey : κ → κ → Code σ Bool) (combine : α → β → Code σ γ) :
      Calling (left.join right keyLeft keyRight sameKey combine) (effects ++ more)
  | joinSearch {α β κ γ} {left : Search σ α} {right : Search σ β} {effects more}
      (first : Calling left effects) (second : Calling right more) (keyLeft : α → Code σ κ)
      (keyRight : β → Code σ κ) (sameKey : κ → κ → Code σ Bool) (combine : α → β → Code σ γ) :
      Calling (left.join right keyLeft keyRight sameKey combine) (effects ++ more)
  | gather {α} {feed : Feed σ α} {effects} (source : Opening feed effects) :
      Calling feed.gather [.contained effects]
  | visit {α} {feed : Feed σ α} {effects} (source : Opening feed effects)
      (visitor : α → Code σ Unit) : Calling (feed.visit visitor) [.contained effects]

/-- The effects of opening a feed, by its form. -/
inductive Opening : {α : Type} → Feed σ α → List (Effect σ) → Prop where
  | own {α} (feed : Feed σ α) : Opening feed [.runs feed.start]
  | ofList {α} (values : List α) : Opening (Feed.ofList values) []
  | never {α} : Opening (Feed.never : Feed σ α) []
  | ofAttempt {α} {attempt : Attempt σ α} {effects} (source : Calling attempt effects) :
      Opening (Feed.ofAttempt attempt) effects
  | map {α β} {feed : Feed σ α} {effects} (source : Opening feed effects) (f : α → Code σ β) :
      Opening (feed.map f) effects
  | filter {α} {feed : Feed σ α} {effects} (source : Opening feed effects)
      (accepts : α → Code σ Bool) : Opening (feed.filter accepts) effects
  | append {α} {first second : Feed σ α} {effects more} (source : Opening first effects)
      (next : Opening second more) : Opening (first.append second) (effects ++ more)
  | merge {α} (hubs : Arena σ (Hub α)) (inputs : List (Feed σ α)) (scope : Scope σ) :
      Opening (Feed.merge hubs inputs scope) [.hub hubs]

end

end

variable [Host σ]

mutual

theorem Built.calls {manner : Manner σ} :
    ∀ {ρ : Type} {action : Action σ ρ}, Built manner action → ∃ effects, Calling action effects
  | _, _, .ofVerdict verdict => ⟨_, .lazy (.ofVerdict verdict)⟩
  | _, _, @Built.new _ _ _ _ _ _ build _ => ⟨_, .new build⟩
  | _, _, @Built.lift _ _ _ _ build _ => ⟨_, .lift build⟩
  | _, _, @Built.map _ _ _ _ _ attempt f _ _ => ⟨_, .lazy (.map attempt f)⟩
  | _, _, @Built.mapError _ _ _ _ attempt f _ _ => ⟨_, .lazy (.mapError attempt f)⟩
  | _, _, @Built.bind _ _ _ _ _ attempt next _ _ _ => ⟨_, .lazy (.bind attempt next)⟩
  | _, _, .resolve _ _ _ => ⟨_, .lazy (.resolve _ _ _)⟩
  | _, _, .filter _ _ => ⟨_, .lazy (.filter _ _)⟩
  | _, _, .orElse _ _ => ⟨_, .lazy (.orElse _ _)⟩
  | _, _, .join _ first second _ =>
      let ⟨_, calls⟩ := first.calls
      let ⟨_, follows⟩ := second.calls
      ⟨_, .join calls follows _ _ _ _⟩
  | _, _, .widen _ => ⟨_, .lazy (.widen _)⟩
  | _, _, .ofFinding finding => ⟨_, .lazy (.ofFinding finding)⟩
  | _, _, @Built.newSearch _ _ _ _ _ _ build _ => ⟨_, .newSearch build⟩
  | _, _, @Built.liftSearch _ _ _ _ build _ => ⟨_, .liftSearch build⟩
  | _, _, .mapSearch _ _ => ⟨_, .lazy (.mapSearch _ _)⟩
  | _, _, .bindSearch _ _ _ => ⟨_, .lazy (.bindSearch _ _)⟩
  | _, _, .resolveSearch _ _ _ _ => ⟨_, .lazy (.resolveSearch _ _ _ _)⟩
  | _, _, .filterSearch _ _ => ⟨_, .lazy (.filterSearch _ _)⟩
  | _, _, .orElseSearch _ _ => ⟨_, .lazy (.orElseSearch _ _)⟩
  | _, _, .joinSearch _ first second _ =>
      let ⟨_, calls⟩ := first.calls
      let ⟨_, follows⟩ := second.calls
      ⟨_, .joinSearch calls follows _ _ _ _⟩
  | _, _, .narrow _ => ⟨_, .lazy (.narrow _)⟩
  | _, _, @Built.cached _ _ _ _ _ latch action _ _ => ⟨_, .lazy (.cached latch action)⟩
  | _, _, @Built.cachedAlone _ _ _ _ _ gate action _ _ _ => ⟨_, .lazy (.cachedAlone gate action)⟩
  | _, _, @Built.retried _ _ _ _ _ action _ plan => ⟨_, .lazy (.retried action plan)⟩
  | _, _, .gather _ source =>
      let ⟨_, opens⟩ := source.opens
      ⟨_, .gather opens⟩
  | _, _, .visit _ source _ =>
      let ⟨_, opens⟩ := source.opens
      ⟨_, .visit opens _⟩

theorem BuiltFeed.opens {manner : Manner σ} :
    ∀ {α : Type} {feed : Feed σ α}, BuiltFeed manner feed → ∃ effects, Opening feed effects
  | _, _, .own _ => ⟨_, .own _⟩
  | _, _, .ofList values => ⟨_, .ofList values⟩
  | _, _, .never => ⟨_, .never⟩
  | _, _, .ofAttempt source =>
      let ⟨_, calls⟩ := source.calls
      ⟨_, .ofAttempt calls⟩
  | _, _, .map source _ =>
      let ⟨_, opens⟩ := source.opens
      ⟨_, .map opens _⟩
  | _, _, .filter source _ =>
      let ⟨_, opens⟩ := source.opens
      ⟨_, .filter opens _⟩
  | _, _, .append source next =>
      let ⟨_, opens⟩ := source.opens
      let ⟨_, follows⟩ := next.opens
      ⟨_, .append opens follows⟩
  | _, _, .merge _ _ => ⟨_, .merge _ _ _⟩

end

namespace Effect

theorem performAll_append (effects more : List (Effect σ)) :
    performAll (effects ++ more) = performAll effects >>= fun _ => performAll more := by
  induction effects with
  | nil => simp [performAll]
  | cons effect effects ih => simp [performAll, ih]

theorem performAll_singleton (effect : Effect σ) : performAll [effect] = effect.perform := by
  simp [performAll]

/-- Everything that may panic is contained. -/
def Caught (effects : List (Effect σ)) : Prop :=
  ∀ effect ∈ effects, ∃ inner, effect = contained inner

omit [Host σ] in
theorem Caught.append {effects more : List (Effect σ)} (caught : Caught effects)
    (follows : Caught more) : Caught (effects ++ more) :=
  List.forall_mem_append.mpr ⟨caught, follows⟩

omit [Host σ] in
theorem caught_singleton (effects : List (Effect σ)) : Caught [contained effects] :=
  fun _ member => ⟨effects, List.mem_singleton.mp member⟩

theorem Caught.performAll {effects : List (Effect σ)} (caught : Caught effects) (state : σ) :
    Effect.performAll effects state = (.ok (), performed effects state) := by
  induction effects generalizing state with
  | nil => rfl
  | cons effect effects ih =>
    obtain ⟨⟨inner, rfl⟩, rest⟩ := List.forall_mem_cons.mp caught
    have first : (contained inner).perform state =
        (.ok (), (contain (Effect.performAll inner) state).2) := rfl
    have step : Effect.performAll (contained inner :: effects) state = _ :=
      Code.bind_of_ok first
    rw [performed, step, ih rest]

mutual

theorem spares_perform {τ : Type} {view : σ → τ}
    (record : ∀ error state, view (Host.record error state) = view state) :
    ∀ (effect : Effect σ), effect.Spares view → ∀ state, view (effect.perform state).2 = view state
  | .runs code, spares, state => by
      show view (code.silent state).2 = _
      rw [Code.silent_apply]
      exact spares state
  | .hub _, spares, state => spares state
  | .contained effects, spares, state => by
      have kept : view (performAll effects state).2 = view state :=
        spares_performAll record effects spares state
      show view (contain (performAll effects) state).2 = _
      unfold contain
      split
      case h_1 same => rwa [same] at kept
      case h_2 same =>
        rw [same] at kept
        exact (record _ _).trans kept

/-- What the effects spare is left alone by performing them, however far they get. -/
theorem spares_performAll {τ : Type} {view : σ → τ}
    (record : ∀ error state, view (Host.record error state) = view state) :
    ∀ (effects : List (Effect σ)), AllSpare view effects →
      ∀ state, view (performed effects state) = view state
  | [], _, _ => rfl
  | effect :: effects, ⟨first, rest⟩, state => by
      have kept := spares_perform record effect first state
      unfold performed
      cases same : effect.perform state with
      | mk result after =>
        rw [same] at kept
        cases result with
        | ok value =>
          have step : performAll (effect :: effects) state = _ := Code.bind_of_ok same
          rw [step]
          exact (spares_performAll record effects rest after).trans kept
        | error payload =>
          have step : performAll (effect :: effects) state = _ := Code.bind_of_error same
          rw [step]
          exact kept

end

end Effect

theorem Action.Lazy.call {ρ : Type} {action : Action σ ρ} (lazy : action.Lazy) :
    ∃ future, action.call = pure future := by
  cases lazy <;> exact ⟨_, rfl⟩

section
variable {α ρ : Type}

/-- A call that contains what builds its future does what building it does, and then nothing. -/
theorem silent_call_of_contain {build : Code σ α} {next : Except Error α → Code σ (Future σ ρ)}
    {effects : List (Effect σ)} (builds : build.silent = Effect.performAll effects)
    (handsBack : ∀ built, ∃ future, next built = pure future) :
    Code.silent (liftM (contain build) >>= next) = Effect.performAll [.contained effects] := by
  have nothing : ∀ built, (next built).silent = pure () := fun built => by
    obtain ⟨future, same⟩ := handsBack built
    rw [same]
    rfl
  rw [Code.silent_bind, Effect.performAll_singleton, Effect.perform, ← builds,
    ← Code.silent_contain, Code.silent_eq (liftM _)]
  simp only [nothing]

/-- Two parts of a call, one after the other, neither of which is looked at. -/
theorem silent_in_turn {β : Type} {first : Code σ α} {second : Code σ β} {both : α → β → ρ}
    {effects more : List (Effect σ)} (begins : first.silent = Effect.performAll effects)
    (follows : second.silent = Effect.performAll more) :
    Code.silent (first >>= fun a => second >>= fun b => pure (both a b)) =
      Effect.performAll (effects ++ more) := by
  rw [Effect.performAll_append, ← begins, ← follows, Code.silent_then]
  simp only [Code.silent_eq, bind_assoc, pure_bind]

end

theorem silent_runs {α : Type} (code : Code σ α) :
    code.silent = Effect.performAll [.runs code] := by
  rw [Effect.performAll_singleton, Effect.perform]

mutual

/-- Without the future that it hands back, a call is nothing but its effects. -/
theorem Calling.silent_call :
    ∀ {ρ : Type} {action : Action σ ρ} {effects : List (Effect σ)},
      Calling action effects → action.call.silent = Effect.performAll effects
  | _, _, _, .lazy lazy => by
      obtain ⟨future, same⟩ := lazy.call
      rw [same]
      rfl
  | _, _, _, @Calling.new _ _ _ _ _ build => silent_call_of_contain (silent_runs build) fun
      | .ok _ => ⟨_, rfl⟩
      | .error _ => ⟨_, rfl⟩
  | _, _, _, .lift build => silent_call_of_contain (silent_runs build) fun
      | .ok _ => ⟨_, rfl⟩
      | .error _ => ⟨_, rfl⟩
  | _, _, _, @Calling.newSearch _ _ _ _ _ build => silent_call_of_contain (silent_runs build) fun
      | .ok _ => ⟨_, rfl⟩
      | .error _ => ⟨_, rfl⟩
  | _, _, _, .liftSearch build => silent_call_of_contain (silent_runs build) fun
      | .ok _ => ⟨_, rfl⟩
      | .error _ => ⟨_, rfl⟩
  | _, _, _, .join first second _ _ _ _ => silent_in_turn first.silent_call second.silent_call
  | _, _, _, .joinSearch first second _ _ _ _ => silent_in_turn first.silent_call second.silent_call
  | _, _, _, .gather source =>
      silent_call_of_contain ((Code.silent_bind_pure _ _).trans source.silent_start) fun
        | .ok _ => ⟨_, rfl⟩
        | .error _ => ⟨_, rfl⟩
  | _, _, _, .visit source _ =>
      silent_call_of_contain ((Code.silent_bind_pure _ _).trans source.silent_start) fun
        | .ok _ => ⟨_, rfl⟩
        | .error _ => ⟨_, rfl⟩

/-- Without the flow that it gives, the start of a feed is nothing but its effects. -/
theorem Opening.silent_start :
    ∀ {α : Type} {feed : Feed σ α} {effects : List (Effect σ)},
      Opening feed effects → feed.start.silent = Effect.performAll effects
  | _, _, _, .own feed => silent_runs feed.start
  | _, _, _, .ofList _ => rfl
  | _, _, _, .never => rfl
  | _, _, _, .ofAttempt source => (Code.silent_bind_pure _ _).trans source.silent_call
  | _, _, _, .map source _ => (Code.silent_bind_pure _ _).trans source.silent_start
  | _, _, _, .filter source _ => (Code.silent_bind_pure _ _).trans source.silent_start
  | _, _, _, .append source next => silent_in_turn source.silent_start next.silent_start
  | _, _, _, .merge hubs _ _ => by
      rw [Effect.performAll_singleton]
      exact Code.silent_bind_pure _ _

end

theorem Calling.caught :
    ∀ {ρ : Type} {action : Action σ ρ} {effects : List (Effect σ)},
      Calling action effects → Effect.Caught effects
  | _, _, _, .lazy _ => nofun
  | _, _, _, @Calling.new _ _ _ _ _ _ => Effect.caught_singleton _
  | _, _, _, .lift _ => Effect.caught_singleton _
  | _, _, _, @Calling.newSearch _ _ _ _ _ _ => Effect.caught_singleton _
  | _, _, _, .liftSearch _ => Effect.caught_singleton _
  | _, _, _, .join first second _ _ _ _ => first.caught.append second.caught
  | _, _, _, .joinSearch first second _ _ _ _ => first.caught.append second.caught
  | _, _, _, .gather _ => Effect.caught_singleton _
  | _, _, _, .visit _ _ => Effect.caught_singleton _

/-- The histories without a poll, by the turns of the run and by what is left of it. What the call
hands back is kept, or dropped in a state that other code may have left. -/
inductive Action.Unpolled {ρ : Type} (action : Action σ ρ) : List (σ × σ) → Running σ ρ → Prop where
  | called {future state after} (called : action.call state = (.ok future, after)) :
      Unpolled action [(state, after)] (.stopped .passed future)
  | unwound {payload state after} (called : action.call state = (.error payload, after)) :
      Unpolled action [(state, after)] .panicked
  | dropped {own wait resume state} (earlier : Unpolled action own (.stopped wait resume)) :
      Unpolled action (own ++ [(state, wait.release state)]) .dropped

section
variable {ρ : Type} {action : Action σ ρ} {own : List (σ × σ)} {run : Running σ ρ}

/-- What the call of an action does, told by its effects. The call never panics, the effects are all
that a run does before its first poll, and whatever they spare stays as it was. -/
structure Action.Does (action : Action σ ρ) (effects : List (Effect σ)) : Prop where
  handsBack : ∀ state, ∃ future, action.call state = (.ok future, Effect.performed effects state)
  unpolled : ∀ own run, action.Unpolled own run → ∃ state,
    (own = [(state, Effect.performed effects state)] ∧ ∃ future, run = .stopped .passed future) ∨
      ∃ later, own = [(state, Effect.performed effects state), (later, later)] ∧ run = .dropped
  spared : ∀ {τ : Type} (view : σ → τ),
    (∀ error state, view (Host.record error state) = view state) →
    Effect.AllSpare view effects → ∀ state, view (action.call state).2 = view state

/-- What the start of a feed does, told by its effects. It panics where they do. -/
structure Feed.Does {α : Type} (feed : Feed σ α) (effects : List (Effect σ)) : Prop where
  starts : feed.start.silent = Effect.performAll effects
  spared : ∀ {τ : Type} (view : σ → τ),
    (∀ error state, view (Host.record error state) = view state) →
    Effect.AllSpare view effects → ∀ state, view (feed.start state).2 = view state

theorem Calling.does {effects : List (Effect σ)} (calling : Calling action effects) :
    action.Does effects := by
  have handsBack : ∀ state, ∃ future,
      action.call state = (.ok future, Effect.performed effects state) := fun state => by
    have silent := congrFun calling.silent_call state
    rw [Code.silent_apply, calling.caught.performAll] at silent
    cases same : action.call state with
    | mk result after =>
      rw [same] at silent
      cases result with
      | ok future =>
        obtain rfl : after = Effect.performed effects state := congrArg Prod.snd silent
        exact ⟨future, rfl⟩
      | error payload => cases congrArg Prod.fst silent
  have called : ∀ {state result after}, action.call state = (result, after) →
      after = Effect.performed effects state ∧ ∃ future, result = .ok future := by
    intro state result after same
    obtain ⟨future, handed⟩ := handsBack state
    cases same.symm.trans handed
    exact ⟨rfl, future, rfl⟩
  refine ⟨handsBack, fun own run unpolled => ?_, fun view record spares state => ?_⟩
  · cases unpolled with
    | @called future state after same =>
      obtain ⟨rfl, -⟩ := called same
      exact ⟨state, .inl ⟨rfl, future, rfl⟩⟩
    | unwound same =>
      obtain ⟨-, future, never⟩ := called same
      cases never
    | @dropped own wait resume later earlier =>
      cases earlier with
      | @called future state after same =>
        obtain ⟨rfl, -⟩ := called same
        exact ⟨state, .inr ⟨later, rfl, rfl⟩⟩
  · obtain ⟨future, same⟩ := handsBack state
    rw [same]
    exact Effect.spares_performAll record effects spares state

end

theorem Opening.does {α : Type} {feed : Feed σ α} {effects : List (Effect σ)}
    (opening : Opening feed effects) : feed.Does effects := by
  refine ⟨opening.silent_start, fun view record spares state => ?_⟩
  have kept := Effect.spares_performAll record effects spares state
  rwa [Effect.performed, ← opening.silent_start, Code.silent_apply] at kept

/-- Before its first poll, whatever is built does what its form lists and nothing else: an action
in its call and a feed at its start. Building a merge with a scope of its own only takes a flag. -/
theorem does_only_what_is_listed (manner : Manner σ) :
    (∀ {ρ : Type} {action : Action σ ρ}, Built manner action →
      (∃ effects, Calling action effects) ∧
        ∀ effects, Calling action effects → action.Does effects) ∧
    (∀ {α : Type} {feed : Feed σ α}, BuiltFeed manner feed →
      (∃ effects, Opening feed effects) ∧ ∀ effects, Opening feed effects → feed.Does effects) ∧
    ∀ {α : Type} (hubs : Arena σ (Hub α)) (flags : Arena σ Flag) (inputs : List (Feed σ α))
      (state : σ), (Feed.mergeAll hubs flags inputs state).2 = (flags.fresh .lowered state).2 :=
  ⟨fun built => ⟨built.calls, fun _ calling => calling.does⟩,
    fun built => ⟨built.opens, fun _ opening => opening.does⟩,
    fun _ _ _ _ => rfl⟩

/-! ### A join with a merge in it -/

/-- Room for one hub beside a flag. -/
abbrev Stand : Type := Notebook (Hub Nat × Flag)

namespace Stand

def hubs : Arena Stand (Hub Nat) where
  fresh hub stand :=
    (⟨fun now => now.cell.1, fun hub now => { now with cell := (hub, now.cell.2) }, fun _ _ => rfl⟩,
      { stand with cell := (hub, stand.cell.2) })

def scope : Scope Stand :=
  ⟨⟨⟨fun now => now.cell.2, fun flag now => { now with cell := (now.cell.1, flag) },
    fun _ _ => rfl⟩⟩⟩

def notes (text : String) : Code Stand Unit :=
  fun stand => (.ok (), stand.note (.message text))

def left : Attempt Stand Nat :=
  .lift do
    notes "left"
    Code.panic (.fixed "unready")

def source (text : String) : Feed Stand Nat :=
  ⟨do
    notes text
    return .empty⟩

def right : Attempt Stand (List Nat) :=
  ((source "first").append (.merge hubs [source "input"] scope)).gather

/-- The left side panics when it is built, and the right one opens a merge. -/
def joined : Attempt Stand Nat :=
  left.join right (fun _ => pure ()) (fun _ => pure ()) (fun _ _ => pure true) fun a _ => pure a

end Stand

open Stand in
/-- The left side is built and its panic recorded, then the right side opens its first part; the
input of the merge stays closed, and the flag is left alone. -/
theorem joined_does_only_what_is_listed :
    Built Manner.any joined ∧ ∀ cell,
      ∃ future, joined.call (Notebook.opened cell) = (.ok future,
        { Notebook.opened (.new, cell.2) with
          noted := [.message "left", .message "first"]
          log := [.panicked "unready"] }) := by
  have built : Built Manner.any joined :=
    .join trivial (.lift ⟨trivial, fun _ _ => trivial⟩)
      (.gather trivial (.append (.own ⟨trivial, fun _ _ => trivial⟩)
        (.merge ⟨trivial, fun _ _ => trivial⟩ fun _ _ => .own ⟨trivial, fun _ _ => trivial⟩)))
      ⟨fun _ => trivial, fun _ => trivial, fun _ _ => trivial, fun _ _ => trivial⟩
  have calling : Calling joined _ :=
    .join (.lift _) (.gather (.append (.own (source "first")) (.merge hubs _ scope))) _ _ _ _
  have does := ((does_only_what_is_listed Manner.any).1 built).2 _ calling
  exact ⟨built, fun cell => does.handsBack (Notebook.opened cell)⟩

end Deferred
