import Deferred.Projection
import Deferred.Proofs.Laws.Pipelines

/-! Handlers of a finished run. The action is run once, and then one handler is called: the one for
the result, with what the result carries. What it answers with is projected and awaited. None of
this is contained. A panic of the handler, of the projecting or of what is awaited goes to the
caller as it is, and nobody records it.

The other ways to take a value out of a run are handlers of a special form. Handling with code that
returns actions is `bind`, up to the panics of that code. -/

namespace Deferred

variable {σ α β γ ρ : Type} {β₁ β₂ β₃ : Type}

/-! ### One handler -/

/-- Code goes before what follows it, and ends the whole if it panics. -/
theorem Future.ofCode_then_endsWith_iff {code : Code σ α} {next : α → Future σ β} {state last : σ}
    {inputs : List σ} {ending : Except Payload β} :
    ((ofCode code >>= next) state).EndsWith inputs ending last ↔
      (∃ payload, code state = (.error payload, last) ∧ inputs = [] ∧ ending = .error payload) ∨
      ∃ value after, code state = (.ok value, after) ∧
        (next value after).EndsWith inputs ending last := by
  refine Poll.endsWith_bind_iff.trans (or_congr ⟨?_, ?_⟩ ⟨?_, ?_⟩)
  · rintro ⟨payload, rfl, panics⟩
    obtain ⟨rfl, raises⟩ := ofCode_panics_iff.mp panics
    exact ⟨payload, raises, rfl, rfl⟩
  · rintro ⟨payload, raises, rfl, rfl⟩
    exact ⟨payload, rfl, ofCode_panics_iff.mpr ⟨rfl, raises⟩⟩
  · rintro ⟨first, later, value, after, rfl, answers, ends⟩
    obtain ⟨rfl, returns⟩ := ofCode_answers_iff.mp answers
    exact ⟨value, after, returns, ends⟩
  · rintro ⟨value, after, returns, ends⟩
    exact ⟨[], inputs, value, after, rfl, ofCode_answers_iff.mpr ⟨rfl, returns⟩, ends⟩

/-- A complete run of one handler. It is called once; what it answers with is projected, and what
comes out of that is awaited. The first panic is the end, in the state in which it has happened. -/
inductive Handled [Projects σ β ρ] (handler : Code σ β) (state : σ) :
    List σ → Except Payload ρ → σ → Prop where
  | raises {payload last} (panics : handler state = (.error payload, last)) :
      Handled handler state [] (.error payload) last
  | unprojected {answer middle payload last} (answers : handler state = (.ok answer, middle))
      (panics : (Projects.project answer : Code σ (Future σ ρ)) middle = (.error payload, last)) :
      Handled handler state [] (.error payload) last
  | awaited {answer middle future after inputs ending last}
      (answers : handler state = (.ok answer, middle))
      (projects : (Projects.project answer : Code σ (Future σ ρ)) middle = (.ok future, after))
      (ends : (future after).EndsWith inputs ending last) :
      Handled handler state inputs ending last

theorem projected_endsWith_iff [Projects σ β ρ] {handler : Code σ β} {state last : σ}
    {inputs : List σ} {ending : Except Payload ρ} :
    (projected handler state).EndsWith inputs ending last ↔
      Handled handler state inputs ending last := by
  refine Future.ofCode_then_endsWith_iff.trans ⟨?_, ?_⟩
  · rintro (⟨payload, panics, rfl, rfl⟩ | ⟨answer, middle, answers, goesOn⟩)
    · exact .raises panics
    · rcases Future.ofCode_then_endsWith_iff.mp goesOn with
        ⟨payload, panics, rfl, rfl⟩ | ⟨future, after, projects, ends⟩
      · exact .unprojected answers panics
      · exact .awaited answers projects ends
  · rintro (panics | ⟨answers, panics⟩ | ⟨answers, projects, ends⟩)
    · exact .inl ⟨_, panics, rfl, rfl⟩
    · exact .inr ⟨_, _, answers,
        Future.ofCode_then_endsWith_iff.mpr (.inl ⟨_, panics, rfl, rfl⟩)⟩
    · exact .inr ⟨_, _, answers, Future.ofCode_then_endsWith_iff.mpr (.inr ⟨_, _, projects, ends⟩)⟩

/-- What the answers of each sort come to. -/
structure Projections (σ : Type) : Prop where
  plain : ∀ {ρ : Type} [Plain ρ] (answer : Code σ ρ), projected answer = Future.ofCode answer
  ready : ∀ {ρ : Type} (answer : Code σ (Ready ρ)),
    projected answer = Ready.value <$> Future.ofCode answer
  suspended : ∀ {ρ : Type} (answer : Code σ (Suspended σ ρ)),
    projected answer = Future.ofCode answer >>= Suspended.future
  action : ∀ {ρ : Type} (answer : Code σ (Action σ ρ)),
    projected answer = Future.ofCode answer >>= Action.awaited

theorem projections : Projections σ where
  plain answer := bind_pure (Future.ofCode answer)
  ready answer := (bind_pure_comp Ready.value (Future.ofCode answer))
  suspended _ := rfl
  action _ := rfl

/-! ### One handler out of several -/

/-- A complete run of an attempt and then of the handler for its verdict. -/
inductive Attempt.Handles [Projects σ β₁ ρ] [Projects σ β₂ ρ] (attempt : Attempt σ α)
    (onSuccess : α → Code σ β₁) (onFailure : Error → Code σ β₂) (state : σ) :
    List σ → Except Payload ρ → σ → Prop where
  | success {first value middle later ending last}
      (runs : (attempt.awaited state).Answers first (.success value) middle)
      (handled : Handled (onSuccess value) middle later ending last) :
      Handles attempt onSuccess onFailure state (first ++ later) ending last
  | failure {first error middle later ending last}
      (runs : (attempt.awaited state).Answers first (.failure error) middle)
      (handled : Handled (onFailure error) middle later ending last) :
      Handles attempt onSuccess onFailure state (first ++ later) ending last

/-- A complete run of a search and then of the handler for its finding. -/
inductive Search.Handles [Projects σ β₁ ρ] [Projects σ β₂ ρ] [Projects σ β₃ ρ]
    (search : Search σ α) (onFound : α → Code σ β₁) (onAbsent : Unit → Code σ β₂)
    (onFailed : Error → Code σ β₃) (state : σ) : List σ → Except Payload ρ → σ → Prop where
  | found {first value middle later ending last}
      (runs : (search.awaited state).Answers first (.found value) middle)
      (handled : Handled (onFound value) middle later ending last) :
      Handles search onFound onAbsent onFailed state (first ++ later) ending last
  | absent {first middle later ending last}
      (runs : (search.awaited state).Answers first .absent middle)
      (handled : Handled (onAbsent ()) middle later ending last) :
      Handles search onFound onAbsent onFailed state (first ++ later) ending last
  | failed {first error middle later ending last}
      (runs : (search.awaited state).Answers first (.failed error) middle)
      (handled : Handled (onFailed error) middle later ending last) :
      Handles search onFound onAbsent onFailed state (first ++ later) ending last

theorem Attempt.handle_eq [Projects σ β₁ ρ] [Projects σ β₂ ρ] (attempt : Attempt σ α)
    (onSuccess : α → Code σ β₁) (onFailure : Error → Code σ β₂) :
    attempt.handle onSuccess onFailure = attempt.awaited >>=
      Verdict.handle (fun value => projected (onSuccess value))
        fun error => projected (onFailure error) := by
  refine bind_congr (x := attempt.awaited) fun verdict => ?_
  cases verdict <;> rfl

theorem Search.handle_eq [Projects σ β₁ ρ] [Projects σ β₂ ρ] [Projects σ β₃ ρ]
    (search : Search σ α) (onFound : α → Code σ β₁) (onAbsent : Unit → Code σ β₂)
    (onFailed : Error → Code σ β₃) :
    search.handle onFound onAbsent onFailed = search.awaited >>=
      Finding.handle (fun value => projected (onFound value))
        (fun _ => projected (onAbsent ())) fun error => projected (onFailed error) := by
  refine bind_congr (x := search.awaited) fun finding => ?_
  cases finding <;> rfl

section
variable [Projects σ β₁ ρ] [Projects σ β₂ ρ] [Projects σ β₃ ρ] {state last : σ} {inputs : List σ}
  {ending : Except Payload ρ}

theorem Attempt.handle_endsWith_iff {attempt : Attempt σ α} {onSuccess : α → Code σ β₁}
    {onFailure : Error → Code σ β₂}
    (never : ∀ payload, ¬(attempt.awaited state).Panics inputs payload last) :
    (attempt.handle onSuccess onFailure state).EndsWith inputs ending last ↔
      attempt.Handles onSuccess onFailure state inputs ending last := by
  rw [handle_eq]
  refine (Poll.endsWith_bind_iff_of_not_panics never).trans ⟨?_, ?_⟩
  · rintro ⟨first, later, value | error, middle, rfl, runs, ends⟩
    · exact .success runs (projected_endsWith_iff.mp ends)
    · exact .failure runs (projected_endsWith_iff.mp ends)
  · rintro (⟨runs, handled⟩ | ⟨runs, handled⟩)
    · exact ⟨_, _, _, _, rfl, runs, projected_endsWith_iff.mpr handled⟩
    · exact ⟨_, _, _, _, rfl, runs, projected_endsWith_iff.mpr handled⟩

theorem Search.handle_endsWith_iff {search : Search σ α} {onFound : α → Code σ β₁}
    {onAbsent : Unit → Code σ β₂} {onFailed : Error → Code σ β₃}
    (never : ∀ payload, ¬(search.awaited state).Panics inputs payload last) :
    (search.handle onFound onAbsent onFailed state).EndsWith inputs ending last ↔
      search.Handles onFound onAbsent onFailed state inputs ending last := by
  rw [handle_eq]
  refine (Poll.endsWith_bind_iff_of_not_panics never).trans ⟨?_, ?_⟩
  · rintro ⟨first, later, value | _ | error, middle, rfl, runs, ends⟩
    · exact .found runs (projected_endsWith_iff.mp ends)
    · exact .absent runs (projected_endsWith_iff.mp ends)
    · exact .failed runs (projected_endsWith_iff.mp ends)
  · rintro (⟨runs, handled⟩ | ⟨runs, handled⟩ | ⟨runs, handled⟩)
    · exact ⟨_, _, _, _, rfl, runs, projected_endsWith_iff.mpr handled⟩
    · exact ⟨_, _, _, _, rfl, runs, projected_endsWith_iff.mpr handled⟩
    · exact ⟨_, _, _, _, rfl, runs, projected_endsWith_iff.mpr handled⟩

theorem Attempt.wakes_handle {attempt : Attempt σ α} {onSuccess : α → Code σ β₁}
    {onFailure : Error → Code σ β₂} (wakes : (attempt.awaited state).Wakes)
    (success : ∀ value after, (projected (onSuccess value) after).Wakes)
    (failure : ∀ error after, (projected (onFailure error) after).Wakes) :
    (attempt.handle onSuccess onFailure state).Wakes := by
  rw [handle_eq]
  refine wakes.bind fun verdict after => ?_
  cases verdict with
  | success value => exact success value after
  | failure error => exact failure error after

theorem Search.wakes_handle {search : Search σ α} {onFound : α → Code σ β₁}
    {onAbsent : Unit → Code σ β₂} {onFailed : Error → Code σ β₃}
    (wakes : (search.awaited state).Wakes)
    (found : ∀ value after, (projected (onFound value) after).Wakes)
    (absent : ∀ after, (projected (onAbsent ()) after).Wakes)
    (failed : ∀ error after, (projected (onFailed error) after).Wakes) :
    (search.handle onFound onAbsent onFailed state).Wakes := by
  rw [handle_eq]
  refine wakes.bind fun finding after => ?_
  cases finding with
  | found value => exact found value after
  | absent => exact absent after
  | failed error => exact failed error after

end

/-! ### Handlers of a special form -/

/-- What code makes, as a ready answer. -/
def readily (code : Code σ ρ) : Code σ (Ready ρ) := do
  return ⟨← code⟩

theorem projected_readily (code : Code σ ρ) : projected (readily code) = Future.ofCode code := by
  rw [projections.ready, readily, Future.ofCode_bind, map_bind]
  exact bind_pure (Future.ofCode code)

namespace Attempt

variable (attempt : Attempt σ α)

theorem foldInto_eq (start : β) (f : β → α → Code σ β) :
    attempt.foldInto start f = attempt.handle (fun value => readily (f start value))
      fun _ => readily (pure start) := by
  rw [handle_eq]
  refine bind_congr (x := attempt.awaited) fun verdict => ?_
  cases verdict with
  | success value => exact (projected_readily (f start value)).symm
  | failure error => rfl

theorem valueD_eq (default : α) :
    attempt.valueD default = attempt.handle (fun value => readily (pure value))
      fun _ => readily (pure default) := by
  rw [handle_eq]
  refine bind_congr (x := attempt.awaited) fun verdict => ?_
  cases verdict <;> rfl

theorem valueOr_eq (substitute : Error → Code σ α) :
    attempt.valueOr substitute = attempt.handle (fun value => readily (pure value))
      fun error => readily (substitute error) := by
  rw [handle_eq]
  refine bind_congr (x := attempt.awaited) fun verdict => ?_
  cases verdict with
  | success value => rfl
  | failure error => exact (projected_readily (substitute error)).symm

end Attempt

namespace Search

variable (search : Search σ α)

theorem foldInto_eq (start : β) (f : β → α → Code σ β) :
    search.foldInto start f = search.handle (fun value => readily (f start value))
      (fun _ => readily (pure start)) fun _ => readily (pure start) := by
  rw [handle_eq]
  refine bind_congr (x := search.awaited) fun finding => ?_
  cases finding with
  | found value => exact (projected_readily (f start value)).symm
  | absent => rfl
  | failed error => rfl

theorem valueD_eq (default : α) :
    search.valueD default = search.handle (fun value => readily (pure value))
      (fun _ => readily (pure default)) fun _ => readily (pure default) := by
  rw [handle_eq]
  refine bind_congr (x := search.awaited) fun finding => ?_
  cases finding <;> rfl

end Search

namespace Carrier

variable [Host σ] {F : Type → Type} {carrier : Carrier σ F}

/-- The code inside the boundary: the failure that its panic becomes stands in for the action. -/
def guarded (carrier : Carrier σ F) (code : Code σ (Action σ (F α))) :
    Code σ (Action σ (F α)) := do
  match ← contain code with
  | .ok following => return following
  | .error panic => return .lazily (pure (carrier.failure panic))

theorem guarded_eq (code : Code σ (Action σ (F α))) (state : σ) :
    carrier.guarded code state =
      match code state with
      | (.ok following, after) => (.ok following, after)
      | (.error payload, after) => (.ok (.lazily (pure (carrier.failure (.ofPanic payload)))),
          Host.record (.ofPanic payload) after) := by
  refine (contain_then code _ state).trans ?_
  unfold contain
  rcases code state with ⟨payload | following, after⟩ <;> rfl

theorem guarded_of_neverPanics {code : Code σ (Action σ (F α))} (never : code.NeverPanics) :
    carrier.guarded code = code := by
  funext state
  obtain ⟨following, after, ok⟩ := never state
  rw [guarded_eq, ok]

/-- A chain goes on with guarded code as a handler would. -/
theorem enter_eq (next : α → Code σ (Action σ (F β))) (a : α) :
    carrier.enter next a = projected (carrier.guarded (next a)) := by
  funext state
  show _ = (Future.ofCode (carrier.guarded (next a)) state).bind _
  rw [Future.ofCode, guarded_eq]
  rcases called : next a state with ⟨payload | following, after⟩
  · exact enter_of_error called
  · exact enter_of_ok called

theorem bind_answers_of_panic {action : Action σ (F α)} {next : α → Code σ (Action σ (F β))}
    {state middle after : σ} {inputs : List σ} {a : α} {payload : Payload}
    (runs : (action.awaited state).Answers inputs (carrier.value a) middle)
    (panics : next a middle = (.error payload, after)) :
    ((carrier.bind action next).awaited state).Answers inputs
      (carrier.failure (.panicked payload.reads))
      (Host.record (.panicked payload.reads) after) := by
  have stops : (carrier.follow (carrier.value a) (carrier.enter next) middle).Answers []
      (carrier.failure (.panicked payload.reads))
      (Host.record (.panicked payload.reads) after) := by
    rw [carrier.follow_value, enter_of_error panics, Error.ofPanic_eq]
    exact .ready
  show ((action.awaited state).bind fun result => carrier.follow result _).Answers _ _ _
  exact runs.bind_at_once stops

end Carrier

section
variable [Host σ]

/-- The handler that fails again. -/
def Attempt.failing (error : Error) : Code σ (Attempt σ α) :=
  pure (failure error)

def Search.failing (error : Error) : Code σ (Search σ α) :=
  pure (failed error)

/-- The handler that finds nothing either. -/
def Search.missing (_ : Unit) : Code σ (Search σ α) :=
  pure absent

theorem Attempt.awaited_bind (attempt : Attempt σ α) (next : α → Code σ (Attempt σ β)) :
    (attempt.bind next).awaited =
      attempt.handle (fun a => Verdict.carrier.guarded (next a)) failing := by
  rw [bind_eq, handle_eq]
  refine bind_congr (x := attempt.awaited) fun verdict => ?_
  cases verdict with
  | success a => exact Carrier.enter_eq next a
  | failure error => rfl

theorem Search.awaited_bind (search : Search σ α) (next : α → Code σ (Search σ β)) :
    (search.bind next).awaited =
      search.handle (fun a => Finding.carrier.guarded (next a)) missing failing := by
  rw [bind_eq, handle_eq]
  refine bind_congr (x := search.awaited) fun finding => ?_
  cases finding with
  | found a => exact Carrier.enter_eq next a
  | absent => rfl
  | failed error => rfl

/-! ### All of them -/

/-- How attempts are handled. In any run, complete or not, the attempt is run and awaited, and then
one handler. A complete run is a complete run of these two, and there is one wherever they can be
woken. -/
structure Attempt.Handling (σ : Type) [Host σ] : Prop where
  inOrder : ∀ {α β₁ β₂ ρ : Type} [Projects σ β₁ ρ] [Projects σ β₂ ρ] (attempt : Attempt σ α)
    (onSuccess : α → Code σ β₁) (onFailure : Error → Code σ β₂),
    attempt.handle onSuccess onFailure = attempt.awaited >>=
      Verdict.handle (fun value => projected (onSuccess value))
        fun error => projected (onFailure error)
  endsWith : ∀ {α β₁ β₂ ρ : Type} [Projects σ β₁ ρ] [Projects σ β₂ ρ] {attempt : Attempt σ α}
    (onSuccess : α → Code σ β₁) (onFailure : Error → Code σ β₂), Built Manner.any attempt →
    ∀ (state : σ) (inputs : List σ) (ending : Except Payload ρ) (last : σ),
      (attempt.handle onSuccess onFailure state).EndsWith inputs ending last ↔
        attempt.Handles onSuccess onFailure state inputs ending last
  ends : ∀ {α β₁ β₂ ρ : Type} [Projects σ β₁ ρ] [Projects σ β₂ ρ] {attempt : Attempt σ α}
    (onSuccess : α → Code σ β₁) (onFailure : Error → Code σ β₂), Built Manner.any attempt →
    ∀ state, (attempt.awaited state).Wakes →
      (∀ value after, (projected (onSuccess value) after).Wakes) →
      (∀ error after, (projected (onFailure error) after).Wakes) →
      ∃ inputs ending last, attempt.Handles onSuccess onFailure state inputs ending last
  foldInto : ∀ {α β : Type} (attempt : Attempt σ α) (start : β) (f : β → α → Code σ β),
    attempt.foldInto start f =
      attempt.handle (fun value => readily (f start value)) fun _ => readily (pure start)
  keeps : ∀ {α β : Type} {attempt : Attempt σ α} (start : β) (f : β → α → Code σ β) {state : σ}
    {inputs : List σ} {error : Error} {last : σ},
    (attempt.awaited state).Answers inputs (.failure error) last →
      (attempt.foldInto start f state).Answers inputs start last
  valueD : ∀ {α : Type} (attempt : Attempt σ α) (default : α),
    attempt.valueD default =
      attempt.handle (fun value => readily (pure value)) fun _ => readily (pure default)
  valueOr : ∀ {α : Type} (attempt : Attempt σ α) (substitute : Error → Code σ α),
    attempt.valueOr substitute =
      attempt.handle (fun value => readily (pure value)) fun error => readily (substitute error)
  /-- Handling with code that returns attempts differs from `bind` only in where the code is
  called. -/
  bind : ∀ {α β : Type} (attempt : Attempt σ α) (next : α → Code σ (Attempt σ β)),
    (attempt.bind next).awaited =
      attempt.handle (fun a => Verdict.carrier.guarded (next a)) failing
  /-- It makes no difference for code that never panics. -/
  bind_of_neverPanics : ∀ {α β : Type} (attempt : Attempt σ α) (next : α → Code σ (Attempt σ β)),
    (∀ a, (next a).NeverPanics) → attempt.handle next failing = (attempt.bind next).awaited
  /-- A panic of the code goes to the caller of the one, and is recorded as a failure of the
  other. -/
  bind_of_panic : ∀ {α β : Type} {attempt : Attempt σ α} {next : α → Code σ (Attempt σ β)}
    {state : σ} {inputs : List σ} {a : α} {middle after : σ} {payload : Payload},
    (attempt.awaited state).Answers inputs (.success a) middle →
      next a middle = (.error payload, after) →
      (attempt.handle next failing state).Panics inputs payload after ∧
        ((attempt.bind next).awaited state).Answers inputs (.failure (.panicked payload.reads))
          (Host.record (.panicked payload.reads) after)

/-- How searches are handled, by one handler out of three. -/
structure Search.Handling (σ : Type) [Host σ] : Prop where
  inOrder : ∀ {α β₁ β₂ β₃ ρ : Type} [Projects σ β₁ ρ] [Projects σ β₂ ρ] [Projects σ β₃ ρ]
    (search : Search σ α) (onFound : α → Code σ β₁) (onAbsent : Unit → Code σ β₂)
    (onFailed : Error → Code σ β₃),
    search.handle onFound onAbsent onFailed = search.awaited >>=
      Finding.handle (fun value => projected (onFound value))
        (fun _ => projected (onAbsent ())) fun error => projected (onFailed error)
  endsWith : ∀ {α β₁ β₂ β₃ ρ : Type} [Projects σ β₁ ρ] [Projects σ β₂ ρ] [Projects σ β₃ ρ]
    {search : Search σ α} (onFound : α → Code σ β₁) (onAbsent : Unit → Code σ β₂)
    (onFailed : Error → Code σ β₃), Built Manner.any search →
    ∀ (state : σ) (inputs : List σ) (ending : Except Payload ρ) (last : σ),
      (search.handle onFound onAbsent onFailed state).EndsWith inputs ending last ↔
        search.Handles onFound onAbsent onFailed state inputs ending last
  ends : ∀ {α β₁ β₂ β₃ ρ : Type} [Projects σ β₁ ρ] [Projects σ β₂ ρ] [Projects σ β₃ ρ]
    {search : Search σ α} (onFound : α → Code σ β₁) (onAbsent : Unit → Code σ β₂)
    (onFailed : Error → Code σ β₃), Built Manner.any search →
    ∀ state, (search.awaited state).Wakes →
      (∀ value after, (projected (onFound value) after).Wakes) →
      (∀ after, (projected (onAbsent ()) after).Wakes) →
      (∀ error after, (projected (onFailed error) after).Wakes) →
      ∃ inputs ending last, search.Handles onFound onAbsent onFailed state inputs ending last
  foldInto : ∀ {α β : Type} (search : Search σ α) (start : β) (f : β → α → Code σ β),
    search.foldInto start f = search.handle (fun value => readily (f start value))
      (fun _ => readily (pure start)) fun _ => readily (pure start)
  keeps : ∀ {α β : Type} {search : Search σ α} (start : β) (f : β → α → Code σ β) {state : σ}
    {inputs : List σ} {why : Option Error} {last : σ},
    (search.awaited state).Answers inputs (Finding.stop why) last →
      (search.foldInto start f state).Answers inputs start last
  valueD : ∀ {α : Type} (search : Search σ α) (default : α),
    search.valueD default = search.handle (fun value => readily (pure value))
      (fun _ => readily (pure default)) fun _ => readily (pure default)
  bind : ∀ {α β : Type} (search : Search σ α) (next : α → Code σ (Search σ β)),
    (search.bind next).awaited =
      search.handle (fun a => Finding.carrier.guarded (next a)) missing failing
  bind_of_neverPanics : ∀ {α β : Type} (search : Search σ α) (next : α → Code σ (Search σ β)),
    (∀ a, (next a).NeverPanics) →
      search.handle next missing failing = (search.bind next).awaited
  bind_of_panic : ∀ {α β : Type} {search : Search σ α} {next : α → Code σ (Search σ β)}
    {state : σ} {inputs : List σ} {a : α} {middle after : σ} {payload : Payload},
    (search.awaited state).Answers inputs (.found a) middle →
      next a middle = (.error payload, after) →
      (search.handle next missing failing state).Panics inputs payload after ∧
        ((search.bind next).awaited state).Answers inputs (.failed (.panicked payload.reads))
          (Host.record (.panicked payload.reads) after)

theorem Attempt.handling : Attempt.Handling σ where
  inOrder := handle_eq
  endsWith _ _ built state inputs _ last :=
    handle_endsWith_iff fun payload => built.not_panics state inputs payload last
  ends onSuccess onFailure built state wakes success failure := by
    obtain ⟨inputs, ending, last, ends⟩ := (wakes_handle wakes success failure).ends
    have never := fun payload => built.not_panics state inputs payload last
    exact ⟨inputs, ending, last, (handle_endsWith_iff never).mp ends⟩
  foldInto := foldInto_eq
  keeps _ _ _ _ _ _ runs := runs.bind_at_once .ready
  valueD := valueD_eq
  valueOr := valueOr_eq
  bind := awaited_bind
  bind_of_neverPanics attempt next never := by
    rw [awaited_bind]
    exact congrArg (attempt.handle · failing)
      (funext fun a => (Carrier.guarded_of_neverPanics (never a)).symm)
  bind_of_panic runs panics := by
    constructor
    · rw [handle_eq]
      exact runs.bind_panics_at_once (projected_endsWith_iff.mpr (.raises panics))
    · rw [bind_eq]
      exact Carrier.bind_answers_of_panic runs panics

theorem Search.handling : Search.Handling σ where
  inOrder := handle_eq
  endsWith _ _ _ built state inputs _ last :=
    handle_endsWith_iff fun payload => built.not_panics state inputs payload last
  ends onFound onAbsent onFailed built state wakes found absent failed := by
    obtain ⟨inputs, ending, last, ends⟩ := (wakes_handle wakes found absent failed).ends
    have never := fun payload => built.not_panics state inputs payload last
    exact ⟨inputs, ending, last, (handle_endsWith_iff never).mp ends⟩
  foldInto := foldInto_eq
  keeps _ _ _ _ why _ runs := by
    cases why with
    | none => exact runs.bind_at_once .ready
    | some error => exact runs.bind_at_once .ready
  valueD := valueD_eq
  bind := awaited_bind
  bind_of_neverPanics search next never := by
    rw [awaited_bind]
    exact congrArg (search.handle · missing failing)
      (funext fun a => (Carrier.guarded_of_neverPanics (never a)).symm)
  bind_of_panic runs panics := by
    constructor
    · rw [handle_eq]
      exact runs.bind_panics_at_once (projected_endsWith_iff.mpr (.raises panics))
    · rw [bind_eq]
      exact Carrier.bind_answers_of_panic runs panics

/-- Attempts and searches are run once and handled once, by code that is not contained. -/
theorem handlers_run_once : Attempt.Handling σ ∧ Search.Handling σ ∧ Projections σ :=
  ⟨Attempt.handling, Search.handling, projections⟩

end

def raising (_ : Nat) : Code (Notebook Nat) (Attempt (Notebook Nat) Nat) :=
  Code.panic (.fixed "raised")

/-- Of two handlers that count, one is called. Where the handler raises, the caller gets the panic
and nothing is recorded, while `bind` records it. -/
theorem lingering_handled_once :
    Built Manner.any (lingering 2) ∧
      (∃ inputs last, ((lingering 2).handle tallied (fun _ => tallied 7) (.opened 0)).EndsWith
        inputs (.ok 3) last ∧ last.cell = 1) ∧
      (lingering 2).handle (fun n => pure (lingering n)) Attempt.failing =
        ((lingering 2).bind fun n => pure (lingering n)).awaited ∧
      ∃ inputs last, last.log = [] ∧
        ((lingering 2).handle raising Attempt.failing (.opened 0)).Panics inputs
          (.fixed "raised") last ∧
        (((lingering 2).bind raising).awaited (.opened 0)).Answers inputs
          (.failure (.panicked "raised")) (Host.record (.panicked "raised") last) := by
  have built : Built Manner.any (lingering 2) := .lift ⟨trivial, fun _ _ => trivial⟩
  have runs := lingering_answers 2 (.opened 0) (.opened 0)
  refine ⟨built, ?_, ?_, ?_⟩
  · have handled : Handled (tallied 2) (.opened 0) [] (.ok 3) _ := .awaited rfl rfl .ready
    exact ⟨_, _, (handlers_run_once.1.endsWith tallied _ built _ _ _ _).mpr
      (.success runs handled), rfl⟩
  · exact handlers_run_once.1.bind_of_neverPanics _ _ fun n => .pure (lingering n)
  · have raised : raising 2 (.opened 0) = (.error (.fixed "raised"), .opened 0) := rfl
    obtain ⟨panics, answers⟩ := handlers_run_once.1.bind_of_panic runs raised
    exact ⟨_, _, rfl, panics, answers⟩

end Deferred
