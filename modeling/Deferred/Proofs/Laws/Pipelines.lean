import Deferred.Proofs.Boundary.Containment
import Deferred.Proofs.Laws.Sequencing

/-! Pipelines: a source and any number of stages behind it, each of which maps, binds or filters the
value that comes to it. A run of a pipeline is a run of the source and then of one stage after the
other. The code of a stage is called once, with the value that has come so far and in the state in
which the stage before has ended. The first result without a value is the result of the whole, and
the code of the stages behind it is not called.

Attempts and searches differ in the reasons why there may be no value, and in the reason that a
filter gives. What is said here of a kind of results in general is said of both. -/

namespace Deferred

variable {σ α β γ δ : Type} {F : Type → Type}

/-- A carrier whose results either have a value or tell why there is none. -/
structure Kind (σ : Type) (F : Type → Type) extends Carrier σ F where
  Reason : Type
  stop : ∀ {α : Type}, Reason → F α
  failed : Error → Reason
  rejected : Reason
  failure_eq : ∀ {α : Type} (error : Error), (failure error : F α) = stop (failed error)
  follow_stop : ∀ {α β : Type} (reason : Reason) (next : α → Future σ (F β)),
    follow (stop reason) next = pure (stop reason)
  value_or_stop : ∀ {α : Type} (result : F α),
    (∃ a, result = value a) ∨ ∃ reason, result = stop reason

/-- A verdict has no value because of its error. What is not accepted is the failure `bottom`. -/
def Verdict.kind : Kind σ Verdict where
  toCarrier := carrier
  Reason := Error
  stop := .failure
  failed := id
  rejected := .bottom
  failure_eq _ := rfl
  follow_stop _ _ := rfl
  value_or_stop
    | .success a => .inl ⟨a, rfl⟩
    | .failure error => .inr ⟨error, rfl⟩

/-- A finding without a value and without an error. -/
def Finding.stop : Option Error → Finding α
  | none => .absent
  | some error => .failed error

/-- A finding has no value because of its error, or for no reason at all. What is not accepted is
absent. -/
def Finding.kind : Kind σ Finding where
  toCarrier := carrier
  Reason := Option Error
  stop := stop
  failed := some
  rejected := none
  failure_eq _ := rfl
  follow_stop
    | none, _ => rfl
    | some _, _ => rfl
  value_or_stop
    | .found a => .inl ⟨a, rfl⟩
    | .absent => .inr ⟨none, rfl⟩
    | .failed error => .inr ⟨some error, rfl⟩

/-- What follows is done to a value, and nothing is done where there is none. -/
theorem Kind.bind_answers_iff (kind : Kind σ F) {poll : Poll σ (F α)} {next : F α → Future σ (F β)}
    (stops : ∀ reason, next (kind.stop reason) = pure (kind.stop reason)) {inputs : List σ}
    {result : F β} {last : σ} :
    (poll.bind next).Answers inputs result last ↔
      (∃ reason, poll.Answers inputs (kind.stop reason) last ∧ result = kind.stop reason) ∨
      ∃ first later a middle, inputs = first ++ later ∧ poll.Answers first (kind.value a) middle ∧
        (next (kind.value a) middle).Answers later result last := by
  refine Poll.answers_bind_iff.trans ⟨?_, ?_⟩
  · rintro ⟨first, later, source, middle, rfl, runs, goesOn⟩
    rcases kind.value_or_stop source with ⟨a, rfl⟩ | ⟨reason, rfl⟩
    · exact .inr ⟨first, later, a, middle, rfl, runs, goesOn⟩
    · rw [stops] at goesOn
      obtain ⟨rfl, rfl, rfl⟩ := Poll.answers_ready_iff.mp goesOn
      rw [List.append_nil]
      exact .inl ⟨reason, runs, rfl⟩
  · rintro (⟨reason, runs, rfl⟩ | ⟨first, later, a, middle, rfl, runs, goesOn⟩)
    · refine ⟨inputs, [], _, last, (List.append_nil _).symm, runs, ?_⟩
      rw [stops]
      exact .ready
    · exact ⟨first, later, _, middle, rfl, runs, goesOn⟩

/-! ### Stages -/

inductive Stage (σ : Type) (F : Type → Type) : Type → Type → Type 1 where
  | map {α β : Type} (f : α → Code σ β) : Stage σ F α β
  | bind {α β : Type} (next : α → Code σ (Action σ (F β))) : Stage σ F α β
  | filter {α : Type} (accepts : α → Code σ Bool) : Stage σ F α α

namespace Stage

/-- The code of the stage panics. -/
def Raises : Stage σ F α β → α → σ → Payload → σ → Prop
  | map f, a, state, payload, after => f a state = (.error payload, after)
  | bind next, a, state, payload, after => next a state = (.error payload, after)
  | filter accepts, a, state, payload, after => accepts a state = (.error payload, after)

/-- A complete run of a stage. Its code is called with the value, once, and the action that `bind`
returns goes on from where the call has ended. -/
inductive Runs [Host σ] (kind : Kind σ F) :
    {α β : Type} → Stage σ F α β → α → σ → List σ → F β → σ → Prop where
  | mapped {α β : Type} {f : α → Code σ β} {a state b last} (calls : f a state = (.ok b, last)) :
      Runs kind (.map f) a state [] (kind.value b) last
  | bound {α β : Type} {next : α → Code σ (Action σ (F β))} {a state following after inputs result
      last} (calls : next a state = (.ok following, after))
      (runs : (following.awaited after).Answers inputs result last) :
      Runs kind (.bind next) a state inputs result last
  | accepted {α : Type} {accepts : α → Code σ Bool} {a state last}
      (calls : accepts a state = (.ok true, last)) :
      Runs kind (.filter accepts) a state [] (kind.value a) last
  | rejected {α : Type} {accepts : α → Code σ Bool} {a state last}
      (calls : accepts a state = (.ok false, last)) :
      Runs kind (.filter accepts) a state [] (kind.stop kind.rejected) last
  | panicked {α β : Type} {stage : Stage σ F α β} {a state payload after}
      (raises : stage.Raises a state payload after) :
      Runs kind stage a state [] (kind.stop (kind.failed (.panicked payload.reads)))
        (Host.record (.panicked payload.reads) after)

/-- The actions that the stage may go on with are of this sort. -/
def GoesOn (fine : ∀ {β : Type}, Action σ (F β) → Prop) : Stage σ F α β → Prop
  | map _ => True
  | bind next => ∀ a following, (next a).Returns following → fine following
  | filter _ => True

end Stage

namespace Kind

variable [Host σ] (kind : Kind σ F)

/-- Keeps the value if it is accepted. -/
def sift (accepts : α → Code σ Bool) (a : α) : Future σ (F α) := do
  match ← Future.caught (accepts a) with
  | .ok true => return kind.value a
  | .ok false => return kind.stop kind.rejected
  | .error panic => return kind.failure panic

/-- What a stage does with a value. -/
def through : Stage σ F α β → α → Future σ (F β)
  | .map f => kind.apply f
  | .bind next => kind.enter next
  | .filter accepts => kind.sift accepts

/-- The operations are those of the kind: what follows an action is done to the value of its result,
if there is one. -/
def Operates (on : ∀ {α β : Type}, Stage σ F α β → Action σ (F α) → Action σ (F β)) : Prop :=
  ∀ {α β : Type} (stage : Stage σ F α β) (action : Action σ (F α)),
    on stage action = action.andThen fun result => kind.follow result (kind.through stage)

variable {kind} {a : α} {state last : σ} {inputs : List σ}

/-- Contained code ends as the code does, and where a panic of it is a failure of the whole, it is
so at once. -/
theorem caught_answers_iff {code : Code σ β} {next : Except Error β → Future σ (F γ)}
    {result : F γ} (fails : ∀ error, next (.error error) = pure (kind.failure error)) :
    ((Future.caught code >>= next) state).Answers inputs result last ↔
      (∃ b after, code state = (.ok b, after) ∧ (next (.ok b) after).Answers inputs result last) ∨
      ∃ payload after, code state = (.error payload, after) ∧ inputs = [] ∧
        result = kind.stop (kind.failed (.panicked payload.reads)) ∧
        last = Host.record (.panicked payload.reads) after := by
  rw [Future.caught_then]
  rcases called : code state with ⟨payload | b, after⟩
  · rw [contain_of_panic called, Error.ofPanic_eq, fails, kind.failure_eq]
    refine Poll.answers_ready_iff.trans ⟨fun ends => .inr ⟨payload, after, rfl, ends⟩, ?_⟩
    rintro (⟨_, _, ⟨⟩, _⟩ | ⟨_, _, ⟨⟩, ends⟩)
    exact ends
  · rw [contain_of_ok called]
    refine ⟨fun answers => .inl ⟨b, after, rfl, answers⟩, ?_⟩
    rintro (⟨_, _, ⟨⟩, answers⟩ | ⟨_, _, ⟨⟩, _⟩)
    exact answers

theorem apply_answers_iff {f : α → Code σ β} {result : F β} :
    (kind.apply f a state).Answers inputs result last ↔
      (Stage.map f).Runs kind a state inputs result last := by
  refine (caught_answers_iff fun _ => rfl).trans ⟨?_, fun runs => ?_⟩
  · rintro (⟨b, after, calls, ends⟩ | ⟨payload, after, raises, rfl, rfl, rfl⟩)
    · obtain ⟨rfl, rfl, rfl⟩ := Poll.answers_ready_iff.mp ends
      exact .mapped calls
    · exact .panicked raises
  · cases runs with
    | mapped calls => exact .inl ⟨_, _, calls, .ready⟩
    | panicked raises => exact .inr ⟨_, _, raises, rfl, rfl, rfl⟩

theorem enter_answers_iff {next : α → Code σ (Action σ (F β))} {result : F β} :
    (kind.enter next a state).Answers inputs result last ↔
      (Stage.bind next).Runs kind a state inputs result last := by
  refine (caught_answers_iff fun _ => rfl).trans ⟨?_, fun runs => ?_⟩
  · rintro (⟨following, after, calls, goesOn⟩ | ⟨payload, after, raises, rfl, rfl, rfl⟩)
    · exact .bound calls goesOn
    · exact .panicked raises
  · cases runs with
    | bound calls goesOn => exact .inl ⟨_, _, calls, goesOn⟩
    | panicked raises => exact .inr ⟨_, _, raises, rfl, rfl, rfl⟩

theorem sift_answers_iff {accepts : α → Code σ Bool} {result : F α} :
    (kind.sift accepts a state).Answers inputs result last ↔
      (Stage.filter accepts).Runs kind a state inputs result last := by
  refine (caught_answers_iff fun _ => rfl).trans ⟨?_, fun runs => ?_⟩
  · rintro (⟨_ | _, after, calls, ends⟩ | ⟨payload, after, raises, rfl, rfl, rfl⟩)
    · obtain ⟨rfl, rfl, rfl⟩ := Poll.answers_ready_iff.mp ends
      exact .rejected calls
    · obtain ⟨rfl, rfl, rfl⟩ := Poll.answers_ready_iff.mp ends
      exact .accepted calls
    · exact .panicked raises
  · cases runs with
    | accepted calls => exact .inl ⟨_, _, calls, .ready⟩
    | rejected calls => exact .inl ⟨_, _, calls, .ready⟩
    | panicked raises => exact .inr ⟨_, _, raises, rfl, rfl, rfl⟩

theorem through_answers_iff {stage : Stage σ F α β} {result : F β} :
    (kind.through stage a state).Answers inputs result last ↔
      stage.Runs kind a state inputs result last := by
  cases stage with
  | map f => exact apply_answers_iff
  | bind next => exact enter_answers_iff
  | filter accepts => exact sift_answers_iff

end Kind

/-! ### Pipelines -/

inductive Pipeline (σ : Type) (F : Type → Type) : Type → Type → Type 1 where
  | nil {α : Type} : Pipeline σ F α α
  | cons {α β γ : Type} (stage : Stage σ F α β) (later : Pipeline σ F β γ) : Pipeline σ F α γ

namespace Pipeline

def length : {α β : Type} → Pipeline σ F α β → Nat
  | _, _, nil => 0
  | _, _, cons _ later => later.length + 1

def append : {α β : Type} → Pipeline σ F α β → Pipeline σ F β γ → Pipeline σ F α γ
  | _, _, nil, other => other
  | _, _, cons stage later, other => cons stage (later.append other)

theorem nil_ne_append_cons (front : Pipeline σ F α β) {stage : Stage σ F β δ}
    {back : Pipeline σ F δ α} : nil ≠ front.append (cons stage back) := by
  cases front <;> nofun

/-- The source with all stages behind it. -/
def build (on : ∀ {α β : Type}, Stage σ F α β → Action σ (F α) → Action σ (F β)) :
    {α β : Type} → Pipeline σ F α β → Action σ (F α) → Action σ (F β)
  | _, _, nil, source => source
  | _, _, cons stage later, source => later.build on (on stage source)

def GoesOn (fine : ∀ {β : Type}, Action σ (F β) → Prop) : {α β : Type} → Pipeline σ F α β → Prop
  | _, _, nil => True
  | _, _, cons stage later => stage.GoesOn fine ∧ later.GoesOn fine

variable [Host σ]

/-- All stages run in turn, each on the value that the one before it has come to. -/
inductive Passes (kind : Kind σ F) :
    {α β : Type} → Pipeline σ F α β → α → σ → List σ → β → σ → Prop where
  | nil {α : Type} {a : α} {state} : Passes kind .nil a state [] a state
  | cons {α β γ : Type} {stage : Stage σ F α β} {later : Pipeline σ F β γ} {a state first b middle
      inputs c last} (runs : stage.Runs kind a state first (kind.value b) middle)
      (rest : Passes kind later b middle inputs c last) :
      Passes kind (.cons stage later) a state (first ++ inputs) c last

/-- How a value fares, and how many stages are run: either all of them, and the value that the last
one has come to is the result; or those up to the first one without a value, whose result is the one
of the whole. -/
inductive Ends (kind : Kind σ F) (pipeline : Pipeline σ F α γ) (a : α) (state : σ) :
    Nat → List σ → F γ → σ → Prop where
  | passed {inputs c last} (passes : pipeline.Passes kind a state inputs c last) :
      Ends kind pipeline a state pipeline.length inputs (kind.value c) last
  | stopped {β δ : Type} {front : Pipeline σ F α β} {stage : Stage σ F β δ}
      {back : Pipeline σ F δ γ} {first b middle later reason last}
      (split : pipeline = front.append (.cons stage back))
      (passes : front.Passes kind a state first b middle)
      (stops : stage.Runs kind b middle later (kind.stop reason) last) :
      Ends kind pipeline a state (front.length + 1) (first ++ later) (kind.stop reason) last

/-- A complete run of the pipeline: it ends with the source, which has come to no value, or it goes
on with the value of the source. -/
inductive Conducts (kind : Kind σ F) (pipeline : Pipeline σ F α γ) (source : Action σ (F α))
    (state : σ) : Nat → List σ → F γ → σ → Prop where
  | idle {inputs reason last}
      (runs : (source.awaited state).Answers inputs (kind.stop reason) last) :
      Conducts kind pipeline source state 0 inputs (kind.stop reason) last
  | busy {first a middle calls later result last}
      (runs : (source.awaited state).Answers first (kind.value a) middle)
      (ends : pipeline.Ends kind a middle calls later result last) :
      Conducts kind pipeline source state calls (first ++ later) result last

end Pipeline

namespace Kind

variable [Host σ] (kind : Kind σ F)

/-- What all stages do with a result, one after the other. -/
def throughAll : {α β : Type} → Pipeline σ F α β → F α → Future σ (F β)
  | _, _, .nil, result => pure result
  | _, _, .cons stage later, result => do
      let middle ← kind.follow result (kind.through stage)
      throughAll later middle

variable {kind} {a : α} {state last : σ} {inputs : List σ} {calls : Nat}

theorem throughAll_stop (pipeline : Pipeline σ F α β) (reason : kind.Reason) :
    kind.throughAll pipeline (kind.stop reason) = pure (kind.stop reason) := by
  induction pipeline with
  | nil => rfl
  | cons stage later ih =>
    unfold throughAll
    rw [kind.follow_stop, pure_bind, ih]

/-- The pipeline does nothing else than its stages, however far its run may get. -/
theorem Operates.awaited_build
    {on : ∀ {α β : Type}, Stage σ F α β → Action σ (F α) → Action σ (F β)}
    (operates : kind.Operates on) (pipeline : Pipeline σ F α β) (source : Action σ (F α)) :
    (pipeline.build on source).awaited = source.awaited >>= kind.throughAll pipeline := by
  induction pipeline with
  | nil => exact (bind_pure source.awaited).symm
  | cons stage later ih =>
    calc
      _ = (on stage source).awaited >>= kind.throughAll later := ih (on stage source)
      _ = (source.awaited >>= fun result => kind.follow result (kind.through stage)) >>=
          kind.throughAll later := congrArg (·.awaited >>= _) (operates stage source)
      _ = _ := bind_assoc _ _ _

theorem ends_nil_iff {result : F α} :
    (Pipeline.nil : Pipeline σ F α α).Ends kind a state calls inputs result last ↔
      calls = 0 ∧ inputs = [] ∧ result = kind.value a ∧ last = state := by
  constructor
  · rintro (⟨⟨⟩⟩ | ⟨split, -, -⟩)
    · exact ⟨rfl, rfl, rfl, rfl⟩
    · exact absurd split (Pipeline.nil_ne_append_cons _)
  · rintro ⟨rfl, rfl, rfl, rfl⟩
    exact .passed .nil

theorem ends_cons_iff {stage : Stage σ F α β} {later : Pipeline σ F β γ} {result : F γ} :
    (Pipeline.cons stage later).Ends kind a state calls inputs result last ↔
      (∃ reason, calls = 1 ∧ stage.Runs kind a state inputs (kind.stop reason) last ∧
        result = kind.stop reason) ∨
      ∃ first rest b middle more, inputs = first ++ rest ∧ calls = more + 1 ∧
        stage.Runs kind a state first (kind.value b) middle ∧
        later.Ends kind b middle more rest result last := by
  constructor
  · rintro (⟨passes⟩ | ⟨split, passes, stops⟩)
    · cases passes with
      | cons runs rest => exact .inr ⟨_, _, _, _, _, rfl, rfl, runs, .passed rest⟩
    · cases passes with
      | nil =>
        cases split
        exact .inl ⟨_, rfl, stops, rfl⟩
      | cons runs rest =>
        cases split
        exact .inr ⟨_, _, _, _, _, List.append_assoc .., rfl, runs, .stopped rfl rest stops⟩
  · rintro (⟨reason, rfl, stops, rfl⟩ | ⟨first, _, b, middle, _, rfl, rfl, runs, ⟨passes⟩ | _⟩)
    · have split : Pipeline.cons stage later = Pipeline.append .nil (.cons stage later) := rfl
      exact .stopped split .nil stops
    · exact .passed (.cons runs passes)
    · rename_i split passes stops
      rw [← List.append_assoc]
      exact .stopped (congrArg (Pipeline.cons stage) split) (.cons runs passes) stops

theorem throughAll_answers_iff {pipeline : Pipeline σ F α β} {result : F β} :
    (kind.throughAll pipeline (kind.value a) state).Answers inputs result last ↔
      ∃ calls, pipeline.Ends kind a state calls inputs result last := by
  induction pipeline generalizing state inputs with
  | nil =>
    simp only [ends_nil_iff, exists_eq_left]
    exact Poll.answers_ready_iff
  | cons stage later ih =>
    unfold throughAll
    rw [kind.follow_value]
    refine (kind.bind_answers_iff (throughAll_stop later)).trans ⟨?_, ?_⟩
    · rintro (⟨reason, runs, rfl⟩ | ⟨first, rest, b, middle, rfl, runs, goesOn⟩)
      · exact ⟨1, ends_cons_iff.mpr (.inl ⟨reason, rfl, through_answers_iff.mp runs, rfl⟩)⟩
      · obtain ⟨more, ends⟩ := ih.mp goesOn
        exact ⟨more + 1, ends_cons_iff.mpr
          (.inr ⟨first, rest, b, middle, more, rfl, rfl, through_answers_iff.mp runs, ends⟩)⟩
    · rintro ⟨calls, ends⟩
      rcases ends_cons_iff.mp ends with
        ⟨reason, -, runs, rfl⟩ | ⟨first, rest, b, middle, more, rfl, -, runs, ends⟩
      · exact .inl ⟨reason, through_answers_iff.mpr runs, rfl⟩
      · exact .inr ⟨first, rest, b, middle, rfl, through_answers_iff.mpr runs, ih.mpr ⟨more, ends⟩⟩

theorem conducts_iff {pipeline : Pipeline σ F α β} {source : Action σ (F α)} {result : F β} :
    ((source.awaited >>= kind.throughAll pipeline) state).Answers inputs result last ↔
      ∃ calls, pipeline.Conducts kind source state calls inputs result last := by
  refine (kind.bind_answers_iff (throughAll_stop pipeline)).trans ⟨?_, ?_⟩
  · rintro (⟨reason, runs, rfl⟩ | ⟨first, rest, a, middle, rfl, runs, goesOn⟩)
    · exact ⟨0, .idle runs⟩
    · obtain ⟨calls, ends⟩ := throughAll_answers_iff.mp goesOn
      exact ⟨calls, .busy runs ends⟩
  · rintro ⟨_, runs | ⟨runs, ends⟩⟩
    · exact .inl ⟨_, runs, rfl⟩
    · exact .inr ⟨_, _, _, _, rfl, runs, throughAll_answers_iff.mpr ⟨_, ends⟩⟩

theorem settles_through {stage : Stage σ F α β} (goesOn : stage.GoesOn Action.Settles) (a : α)
    (state : σ) : (kind.through stage a state).Settles := by
  cases stage with
  | map f => exact Poll.settles_ready
  | bind next =>
    show (kind.enter next a state).Settles
    rcases called : next a state with ⟨payload | following, after⟩
    · rw [Carrier.enter_of_error called]
      exact Poll.settles_ready
    · rw [Carrier.enter_of_ok called]
      exact goesOn a following ⟨state, after, called⟩ after
  | filter accepts =>
    show (Future.caught (accepts a) >>= _) state |>.Settles
    rw [Future.caught_then]
    rcases (contain (accepts a) state).1 with error | _ | _ <;> exact Poll.settles_ready

theorem settles_throughAll {pipeline : Pipeline σ F α β}
    (goesOn : pipeline.GoesOn Action.Settles) (result : F α) (state : σ) :
    (kind.throughAll pipeline result state).Settles := by
  induction pipeline generalizing state with
  | nil => exact Poll.settles_ready
  | cons stage later ih =>
    rcases kind.value_or_stop result with ⟨a, rfl⟩ | ⟨reason, rfl⟩
    · unfold throughAll
      rw [kind.follow_value]
      exact (settles_through goesOn.1 a state).bind (ih goesOn.2)
    · rw [throughAll_stop]
      exact Poll.settles_ready

end Kind

/-! ### Both kinds -/

def Attempt.staged [Host σ] : Stage σ Verdict α β → Attempt σ α → Attempt σ β
  | .map f, attempt => attempt.map f
  | .bind next, attempt => attempt.bind next
  | .filter accepts, attempt => attempt.filter accepts

def Search.staged [Host σ] : Stage σ Finding α β → Search σ α → Search σ β
  | .map f, search => search.map f
  | .bind next, search => search.bind next
  | .filter accepts, search => search.filter accepts

section
variable [Host σ]

theorem Attempt.filter_eq (attempt : Attempt σ α) (accepts : α → Code σ Bool) :
    attempt.filter accepts = attempt.andThen fun verdict =>
      Verdict.kind.follow verdict (Verdict.kind.sift accepts) := by
  refine congrArg attempt.andThen (funext fun verdict => ?_)
  cases verdict with
  | success a =>
    refine bind_congr (x := Future.caught (accepts a)) fun answer => ?_
    rcases answer with panic | _ | _ <;> rfl
  | failure => rfl

theorem Search.filter_eq (search : Search σ α) (accepts : α → Code σ Bool) :
    search.filter accepts = search.andThen fun finding =>
      Finding.kind.follow finding (Finding.kind.sift accepts) := by
  refine congrArg search.andThen (funext fun finding => ?_)
  cases finding with
  | found a =>
    refine bind_congr (x := Future.caught (accepts a)) fun answer => ?_
    rcases answer with panic | _ | _ <;> rfl
  | absent => rfl
  | failed => rfl

theorem Attempt.operates_staged : (Verdict.kind (σ := σ)).Operates staged
  | _, _, .map f, attempt => map_eq attempt f
  | _, _, .bind next, attempt => bind_eq attempt next
  | _, _, .filter accepts, attempt => filter_eq attempt accepts

theorem Search.operates_staged : (Finding.kind (σ := σ)).Operates staged
  | _, _, .map f, search => map_eq search f
  | _, _, .bind next, search => bind_eq search next
  | _, _, .filter accepts, search => filter_eq search accepts

/-- How pipelines of one kind run. Nothing is done in a run, be it complete or not, but what the
source and then the stages do. A complete run has run the first stages in turn, each of them once,
up to the one that has come to no value. If the source and all that `bind` goes on with come to
results, then so does the pipeline. -/
structure LeftToRight (kind : Kind σ F)
    (on : ∀ {α β : Type}, Stage σ F α β → Action σ (F α) → Action σ (F β)) : Prop where
  inOrder : ∀ {α β : Type} (pipeline : Pipeline σ F α β) (source : Action σ (F α)),
    (pipeline.build on source).awaited = source.awaited >>= kind.throughAll pipeline
  answers : ∀ {α β : Type} (pipeline : Pipeline σ F α β) (source : Action σ (F α)) (state : σ)
    (inputs : List σ) (result : F β) (last : σ),
    ((pipeline.build on source).awaited state).Answers inputs result last ↔
      ∃ calls, pipeline.Conducts kind source state calls inputs result last
  settles : ∀ {α β : Type} (pipeline : Pipeline σ F α β) (source : Action σ (F α)),
    source.Settles → pipeline.GoesOn Action.Settles → ∀ state,
      ∃ calls inputs result last, pipeline.Conducts kind source state calls inputs result last

theorem Kind.Operates.leftToRight {kind : Kind σ F}
    {on : ∀ {α β : Type}, Stage σ F α β → Action σ (F α) → Action σ (F β)}
    (operates : kind.Operates on) : LeftToRight kind on where
  inOrder := operates.awaited_build
  answers pipeline source state inputs result last := by
    rw [operates.awaited_build]
    exact Kind.conducts_iff
  settles pipeline source settles goesOn state := by
    have run : ((source.awaited >>= kind.throughAll pipeline) state).Settles :=
      (settles state).bind (Kind.settles_throughAll goesOn)
    obtain ⟨inputs, result, last, answers⟩ := run.answers
    obtain ⟨calls, conducts⟩ := Kind.conducts_iff.mp answers
    exact ⟨calls, inputs, result, last, conducts⟩

/-- Pipelines of attempts and of searches run from left to right. They stop at the first result
without a value, and it is their own result as it stands. A value that is not accepted stops a
pipeline of attempts with the failure `bottom` and one of searches with absence. -/
theorem pipelines_run_left_to_right :
    LeftToRight (σ := σ) Verdict.kind Attempt.staged ∧
      LeftToRight (σ := σ) Finding.kind Search.staged ∧
      ∀ {α : Type} (accepts : α → Code σ Bool) (a : α) (state last : σ),
        accepts a state = (.ok false, last) →
          (Stage.filter accepts).Runs Verdict.kind a state [] (.failure .bottom) last ∧
            (Stage.filter accepts).Runs Finding.kind a state [] .absent last :=
  ⟨Attempt.operates_staged.leftToRight, Search.operates_staged.leftToRight,
    fun _ _ _ _ calls => ⟨.rejected calls, .rejected calls⟩⟩

end

def tallied (n : Nat) : Code (Notebook Nat) Nat :=
  fun book => (.ok (n + 1), { book with cell := book.cell + 1 })

/-- Waits once. -/
def lingering (n : Nat) : Attempt (Notebook Nat) Nat :=
  .lift (pure fun book => .waiting .passed (.ready n) book)

theorem lingering_answers (n : Nat) (book woken : Notebook Nat) :
    ((lingering n).awaited book).Answers [woken] (.success n) woken :=
  .resume rfl .ready

theorem settles_lingering (n : Nat) : (lingering n).Settles := by
  refine fun book => ⟨⟨⟨book, rfl⟩, fun _ _ => trivial⟩, fun inputs payload last panics => ?_⟩
  cases panics with
  | resume opens rest => cases rest

/-- Counts, goes on later, refuses what is odd, and would then panic. -/
def strainer : Pipeline (Notebook Nat) Verdict Nat Nat :=
  .cons (.map tallied) <| .cons (.bind fun n => pure (lingering n)) <|
    .cons (.filter fun n => pure (n % 2 == 0)) <|
      .cons (.map fun _ => Code.panic (.fixed "out of reach")) .nil

/-- The third of four stages refuses the value, and the last one does not panic. -/
theorem strainer_runs_left_to_right :
    (Attempt.success 2 : Attempt (Notebook Nat) Nat).Settles ∧
      strainer.GoesOn Action.Settles ∧
      ∃ inputs last,
        strainer.Conducts Verdict.kind (Attempt.success 2) (.opened 0) 3 inputs
          (.failure .bottom) last ∧
        ((strainer.build Attempt.staged (Attempt.success 2)).awaited (.opened 0)).Answers inputs
          (.failure .bottom) last ∧ last.cell = 1 := by
  have goesOn : strainer.GoesOn Action.Settles := by
    refine ⟨trivial, ?_, trivial, trivial, trivial⟩
    rintro n _ ⟨_, _, ⟨⟩⟩
    exact settles_lingering n
  let woken : Notebook Nat := { Notebook.opened 0 with cell := 1 }
  have conducts : strainer.Conducts Verdict.kind (Attempt.success 2) (.opened 0) 3 [woken]
      (.failure .bottom) woken := by
    have stops : (Stage.filter fun n => pure (n % 2 == 0)).Runs Verdict.kind 3 woken []
        (.failure .bottom) woken := .rejected rfl
    have goes : (Stage.bind fun n => pure (lingering n)).Runs Verdict.kind 3 woken [woken]
        (.success 3) woken := .bound rfl (lingering_answers 3 woken woken)
    have passes : Pipeline.Passes Verdict.kind (.cons (.map tallied)
        (.cons (.bind fun n => pure (lingering n)) .nil)) 2 (.opened 0) ([] ++ ([woken] ++ [])) 3
        woken := .cons (.mapped rfl) (.cons goes .nil)
    have begins : ((Attempt.success 2 : Attempt (Notebook Nat) Nat).awaited (.opened 0)).Answers []
        (Verdict.kind (σ := Notebook Nat).value 2) (.opened 0) := .ready
    exact .busy begins (.stopped rfl passes stops)
  have answers := (pipelines_run_left_to_right.1.answers strainer _ _ _ _ _).mpr ⟨3, conducts⟩
  exact ⟨fun _ => Poll.settles_ready, goesOn, [woken], woken, conducts, answers, rfl⟩

end Deferred
