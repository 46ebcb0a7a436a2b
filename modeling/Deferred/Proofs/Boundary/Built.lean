import Deferred.Search
import Deferred.Proofs.Boundary.Account

/-! Everything that can be built. An action is built from code of the user's and from other actions
and feeds by any nesting of the constructors and combinators, and a feed by any nesting of its own.
The manner in which the code of the user's behaves is a parameter, and so is whether joins, gates
and sinks may be used at all: any manner will do for some results, while others ask for code that
obeys an account, or for code that is blind to a difference and for forms that are so, too.

What all forms preserve is stated here once and for all. A quality has a closure law for each way in
which the library makes one thing of others, and whatever is built has each quality that the code of
the user's has. -/

namespace Deferred

variable {σ : Type}

/-- What is known of the user's code, of the futures and flows that it hands back, and of the places
that the library is given to work on, and which forms may be used. The answer of a future may be one
that is owed for. -/
structure Manner (σ : Type) where
  code : ∀ {α : Type}, Code σ α → Prop
  future : ∀ {α : Type}, (α → Option Error) → Future σ α → Prop
  flow : ∀ {α : Type}, Flow σ α → Prop
  place : ∀ {ρ : Type}, Place σ ρ → Prop
  joins : Prop
  gates : Prop
  sinks : Prop

namespace Manner

/-- Nothing is known: the code may panic with anything at any point, and all forms may be used. -/
def any : Manner σ where
  code _ := True
  future _ _ := True
  flow _ := True
  place _ := True
  joins := True
  gates := True
  sinks := True

variable (manner : Manner σ)

/-- Code whose values are fine as well. -/
structure Gives {α : Type} (fine : α → Prop) (given : Code σ α) : Prop where
  code : manner.code given
  fine : ∀ value, given.Returns value → fine value

structure Joins {α β κ γ : Type} (keyLeft : α → Code σ κ) (keyRight : β → Code σ κ)
    (sameKey : κ → κ → Code σ Bool) (combine : α → β → Code σ γ) : Prop where
  keyLeft : ∀ value, manner.code (keyLeft value)
  keyRight : ∀ value, manner.code (keyRight value)
  sameKey : ∀ a b, manner.code (sameKey a b)
  combine : ∀ a b, manner.code (combine a b)

end Manner

section
variable [Host σ]

mutual

inductive Built (manner : Manner σ) : {ρ : Type} → Action σ ρ → Prop where
  | ofVerdict {α} (verdict : Verdict α) : Built manner (Attempt.ofVerdict verdict)
  | new {α ε} [IsError ε] {build : Code σ (Future σ (Except ε α))}
      (builds : manner.Gives (manner.future owedFor) build) : Built manner (Attempt.new build)
  | lift {α} {build : Code σ (Future σ α)}
      (builds : manner.Gives (manner.future fun _ => none) build) :
      Built manner (Attempt.lift build)
  | map {α β} {attempt : Attempt σ α} {f : α → Code σ β} (source : Built manner attempt)
      (code : ∀ value, manner.code (f value)) : Built manner (attempt.map f)
  | mapError {α} {attempt : Attempt σ α} {f : Error → Code σ Error}
      (source : Built manner attempt) (code : ∀ error, manner.code (f error)) :
      Built manner (attempt.mapError f)
  | bind {α β} {attempt : Attempt σ α} {next : α → Code σ (Attempt σ β)}
      (source : Built manner attempt) (code : ∀ value, manner.code (next value))
      (follows : ∀ value following, (next value).Returns following → Built manner following) :
      Built manner (attempt.bind next)
  | resolve {α β} {attempt : Attempt σ α} {onSuccess : α → Code σ β}
      {onFailure : Error → Code σ β} (source : Built manner attempt)
      (success : ∀ value, manner.code (onSuccess value))
      (failure : ∀ error, manner.code (onFailure error)) :
      Built manner (attempt.resolve onSuccess onFailure)
  | filter {α} {attempt : Attempt σ α} {accepts : α → Code σ Bool}
      (source : Built manner attempt) (code : ∀ value, manner.code (accepts value)) :
      Built manner (attempt.filter accepts)
  | orElse {α} {attempt other : Attempt σ α} (source : Built manner attempt)
      (instead : Built manner other) : Built manner (attempt.orElse other)
  | join {α β κ γ} {left : Attempt σ α} {right : Attempt σ β} {keyLeft : α → Code σ κ}
      {keyRight : β → Code σ κ} {sameKey : κ → κ → Code σ Bool} {combine : α → β → Code σ γ}
      (allowed : manner.joins) (first : Built manner left) (second : Built manner right)
      (code : manner.Joins keyLeft keyRight sameKey combine) :
      Built manner (left.join right keyLeft keyRight sameKey combine)
  | widen {α} {attempt : Attempt σ α} (source : Built manner attempt) :
      Built manner attempt.widen
  | ofFinding {α} (finding : Finding α) : Built manner (Search.ofFinding finding)
  | newSearch {α ε} [IsError ε] {build : Code σ (Future σ (Except ε (Option α)))}
      (builds : manner.Gives (manner.future owedFor) build) : Built manner (Search.new build)
  | liftSearch {α} {build : Code σ (Future σ (Option α))}
      (builds : manner.Gives (manner.future fun _ => none) build) : Built manner (Search.lift build)
  | mapSearch {α β} {search : Search σ α} {f : α → Code σ β} (source : Built manner search)
      (code : ∀ value, manner.code (f value)) : Built manner (search.map f)
  | bindSearch {α β} {search : Search σ α} {next : α → Code σ (Search σ β)}
      (source : Built manner search) (code : ∀ value, manner.code (next value))
      (follows : ∀ value following, (next value).Returns following → Built manner following) :
      Built manner (search.bind next)
  | resolveSearch {α β} {search : Search σ α} {onFound : α → Code σ β}
      {onAbsent : Unit → Code σ β} {onFailed : Error → Code σ β} (source : Built manner search)
      (found : ∀ value, manner.code (onFound value)) (absent : manner.code (onAbsent ()))
      (failed : ∀ error, manner.code (onFailed error)) :
      Built manner (search.resolve onFound onAbsent onFailed)
  | filterSearch {α} {search : Search σ α} {accepts : α → Code σ Bool}
      (source : Built manner search) (code : ∀ value, manner.code (accepts value)) :
      Built manner (search.filter accepts)
  | orElseSearch {α} {search other : Search σ α} (source : Built manner search)
      (instead : Built manner other) : Built manner (search.orElse other)
  | joinSearch {α β κ γ} {left : Search σ α} {right : Search σ β} {keyLeft : α → Code σ κ}
      {keyRight : β → Code σ κ} {sameKey : κ → κ → Code σ Bool} {combine : α → β → Code σ γ}
      (allowed : manner.joins) (first : Built manner left) (second : Built manner right)
      (code : manner.Joins keyLeft keyRight sameKey combine) :
      Built manner (left.join right keyLeft keyRight sameKey combine)
  | narrow {α} {search : Search σ α} (source : Built manner search) : Built manner search.narrow
  | cached {ρ} [HasFailure ρ] {latch : Place σ (Latch ρ)} {action : Action σ ρ}
      (source : Built manner action) (place : manner.place latch) :
      Built manner (action.cached latch)
  | cachedAlone {ρ} [HasFailure ρ] {gate : Place σ (Gate ρ)} {action : Action σ ρ}
      (allowed : manner.gates) (source : Built manner action) (place : manner.place gate) :
      Built manner (action.cachedAlone gate)
  | retried {ρ} [HasFailure ρ] {action : Action σ ρ} (source : Built manner action)
      (plan : RetryPlan) : Built manner (action.retried plan)
  | gather {α} {feed : Feed σ α} (allowed : manner.sinks) (source : BuiltFeed manner feed) :
      Built manner feed.gather
  | visit {α} {feed : Feed σ α} {visitor : α → Code σ Unit} (allowed : manner.sinks)
      (source : BuiltFeed manner feed) (code : ∀ value, manner.code (visitor value)) :
      Built manner (feed.visit visitor)

inductive BuiltFeed (manner : Manner σ) : {α : Type} → Feed σ α → Prop where
  | own {α} {feed : Feed σ α} (starts : manner.Gives manner.flow feed.start) : BuiltFeed manner feed
  | ofList {α} (values : List α) : BuiltFeed manner (Feed.ofList values)
  | never {α} : BuiltFeed manner (Feed.never : Feed σ α)
  | ofAttempt {α} {attempt : Attempt σ α} (source : Built manner attempt) :
      BuiltFeed manner (Feed.ofAttempt attempt)
  | map {α β} {feed : Feed σ α} {f : α → Code σ β} (source : BuiltFeed manner feed)
      (code : ∀ value, manner.code (f value)) : BuiltFeed manner (feed.map f)
  | filter {α} {feed : Feed σ α} {accepts : α → Code σ Bool} (source : BuiltFeed manner feed)
      (code : ∀ value, manner.code (accepts value)) : BuiltFeed manner (feed.filter accepts)
  | append {α} {first second : Feed σ α} (source : BuiltFeed manner first)
      (next : BuiltFeed manner second) : BuiltFeed manner (first.append second)
  | merge {α} {hubs : Arena σ (Hub α)} {inputs : List (Feed σ α)} {scope : Scope σ}
      (handsOut : manner.Gives manner.place (liftM (hubs.fresh Hub.new)))
      (sources : ∀ feed ∈ inputs, BuiltFeed manner feed) :
      BuiltFeed manner (Feed.merge hubs inputs scope)

end

end

/-! ### Qualities -/

variable [Host σ]

/-- A quality of code, futures, actions and feeds: what is made of parts that have it has it too,
and code that behaves in the manner has it anyway. -/
structure Quality (manner : Manner σ) where
  code : ∀ {α : Type}, Code σ α → Prop
  future : ∀ {α : Type}, Future σ α → Prop
  action : ∀ {ρ : Type}, Action σ ρ → Prop
  feed : ∀ {α : Type}, Feed σ α → Prop
  given : ∀ {α : Type} {done : Code σ α}, manner.code done → code done
  code_bind : ∀ {α β : Type} {first : Code σ α} {next : α → Code σ β}, code first →
    (∀ value, code (next value)) → code (first >>= next)
  pure : ∀ {α : Type} (value : α), future (Pure.pure value)
  bind : ∀ {α β : Type} {first : Future σ α} {next : α → Future σ β}, future first →
    (∀ value, future (next value)) → future (first >>= next)
  trace : ∀ event, future (Future.trace event)
  sleep : ∀ millis, future (Future.sleep millis)
  step : ∀ {ρ α : Type} {place : Place σ ρ}, manner.place place →
    ∀ f : ρ → α × ρ, future (liftM (place.step f) : Future σ α)
  contain_bind : ∀ {α β : Type} {done : Code σ α} {next : Except Error α → Future σ β},
    code done → (∀ value, done.Returns value → future (next (.ok value))) →
      (∀ error, future (next (.error error))) → future (liftM (contain done) >>= next)
  contained : ∀ {α : Type} {inner : Future σ α}, manner.future (fun _ => none) inner →
    future inner.contained
  reported : ∀ {α β ε : Type} [IsError ε] {inner : Future σ (Except ε α)}
    {next : Except Error (Except ε α) → Future σ β}, manner.future owedFor inner →
      (∀ value, future (next (.ok (.ok value)))) →
      (∀ reason, ∃ rest, next (.ok (.error reason)) = Future.record (Error.new reason) >>= rest ∧
        ∀ error, future (rest error)) →
      (∀ error, future (next (.error error))) → future (inner.contained >>= next)
  awaited : ∀ {ρ : Type} {run : Action σ ρ}, action run → future run.awaited
  lazily : ∀ {ρ : Type} {inner : Future σ ρ}, future inner → action (.lazily inner)
  building : ∀ {α ρ : Type} {build : Code σ (Future σ α)}
    {next : Except Error (Future σ α) → Code σ (Future σ ρ)}, code build →
      (∀ error, ∃ inner, next (.error error) = Pure.pure inner ∧ future inner) →
      (∀ built, build.Returns built → ∃ inner, next (.ok built) = Pure.pure inner ∧ future inner) →
        action ⟨liftM (contain build) >>= next⟩
  both : ∀ {α β ρ : Type} {left : Action σ α} {right : Action σ β} {combine : α → β → Future σ ρ},
    manner.joins → action left → action right → (∀ a b, future (combine a b)) →
      action ⟨do
        let first ← left.call
        let second ← right.call
        return do
          let (a, b) ← Future.both first second
          combine a b⟩
  cachedAlone : ∀ {ρ : Type} [HasFailure ρ] {gate : Place σ (Gate ρ)} {run : Action σ ρ},
    manner.gates → manner.place gate → action run → action (run.cachedAlone gate)
  gather : ∀ {α : Type} {source : Feed σ α}, manner.sinks → feed source → action source.gather
  visit : ∀ {α : Type} {source : Feed σ α} {visitor : α → Code σ Unit}, manner.sinks →
    feed source → (∀ value, code (visitor value)) → action (source.visit visitor)
  own : ∀ {α : Type} {source : Feed σ α}, manner.Gives manner.flow source.start → feed source
  ofList : ∀ {α : Type} (values : List α), feed (Feed.ofList values)
  never : ∀ {α : Type}, feed (Feed.never : Feed σ α)
  ofAttempt : ∀ {α : Type} {attempt : Attempt σ α}, action attempt → feed (Feed.ofAttempt attempt)
  map : ∀ {α β : Type} {source : Feed σ α} {f : α → Code σ β}, feed source →
    (∀ value, code (f value)) → feed (source.map f)
  filter : ∀ {α : Type} {source : Feed σ α} {accepts : α → Code σ Bool}, feed source →
    (∀ value, code (accepts value)) → feed (source.filter accepts)
  append : ∀ {α : Type} {first second : Feed σ α}, feed first → feed second →
    feed (first.append second)
  merge : ∀ {α : Type} {hubs : Arena σ (Hub α)} {inputs : List (Feed σ α)} {scope : Scope σ},
    manner.Gives manner.place (liftM (hubs.fresh Hub.new)) → (∀ source ∈ inputs, feed source) →
      feed (Feed.merge hubs inputs scope)

namespace Quality

variable {manner : Manner σ} (quality : Quality manner) {α β κ γ ρ τ : Type}

theorem andThen {run : Action σ ρ} {next : ρ → Future σ τ} (has : quality.action run)
    (follows : ∀ result, quality.future (next result)) : quality.action (run.andThen next) :=
  quality.lazily (quality.bind (quality.awaited has) follows)

theorem contain_map {done : Code σ α} (code : manner.code done) (f : Except Error α → β) :
    quality.future (do return f (← contain done)) :=
  quality.contain_bind (quality.given code) (fun _ _ => quality.pure _) fun _ => quality.pure _

section
variable {keyLeft : α → Code σ κ} {keyRight : β → Code σ κ} {sameKey : κ → κ → Code σ Bool}
  {combine : α → β → Code σ γ}

theorem keysAgree (code : manner.Joins keyLeft keyRight sameKey combine) (a : α) (b : β) :
    quality.code (Attempt.keysAgree keyLeft keyRight sameKey a b) :=
  quality.code_bind (quality.given (code.keyLeft a)) fun x =>
    quality.code_bind (quality.given (code.keyRight b)) fun y => quality.given (code.sameKey x y)

theorem joinVerdicts (code : manner.Joins keyLeft keyRight sameKey combine) (a : Verdict α)
    (b : Verdict β) :
    quality.future (Attempt.joinVerdicts keyLeft keyRight sameKey combine a b) :=
  match a, b with
  | .success a, .success b =>
      quality.contain_bind (quality.keysAgree code a b)
        (fun
          | true, _ => quality.contain_map (code.combine a b) _
          | false, _ => quality.pure _)
        fun _ => quality.pure _
  | .failure _, _ => quality.pure _
  | .success _, .failure _ => quality.pure _

theorem joinFindings (code : manner.Joins keyLeft keyRight sameKey combine) (a : Finding α)
    (b : Finding β) :
    quality.future (Search.joinFindings keyLeft keyRight sameKey combine a b) :=
  match a, b with
  | .found a, .found b =>
      quality.contain_bind (quality.keysAgree code a b)
        (fun
          | true, _ => quality.contain_map (code.combine a b) _
          | false, _ => quality.pure _)
        fun _ => quality.pure _
  | .failed _, _ => quality.pure _
  | .found _, .failed _ => quality.pure _
  | .absent, .failed _ => quality.pure _
  | .found _, .absent => quality.pure _
  | .absent, .found _ => quality.pure _
  | .absent, .absent => quality.pure _

end

theorem cached [HasFailure ρ] {latch : Place σ (Latch ρ)} {run : Action σ ρ}
    (place : manner.place latch) (has : quality.action run) : quality.action (run.cached latch) :=
  quality.lazily <| quality.bind (quality.step place _) fun
    | some _ => quality.pure _
    | none => quality.bind (quality.awaited has) fun _ => quality.step place _

theorem runsFrom [HasFailure ρ] {run : Action σ ρ} (has : quality.action run) (plan : RetryPlan)
    (left : Nat) (attempt : UInt64) : quality.future (run.runsFrom plan left attempt) := by
  induction left generalizing attempt with
  | zero =>
    refine quality.bind (quality.awaited has) fun result => ?_
    split
    · exact quality.bind (quality.trace _) fun _ => quality.pure _
    · exact quality.pure _
  | succ left ih =>
    have again : quality.future (do
        Future.trace (.retrying (attempt + 1) plan.runs)
        run.runsFrom plan left (attempt + 1)) :=
      quality.bind (quality.trace _) fun _ => ih (attempt + 1)
    refine quality.bind (quality.awaited has) fun result => ?_
    split
    · split
      · exact quality.bind (quality.trace _) fun _ =>
          quality.bind (quality.sleep _) fun _ => again
      · exact again
    · exact quality.pure _

theorem retried [HasFailure ρ] {run : Action σ ρ} (has : quality.action run) (plan : RetryPlan) :
    quality.action (run.retried plan) :=
  quality.lazily (quality.runsFrom has plan _ 1)

end Quality

variable {manner : Manner σ}

mutual

theorem Built.has (quality : Quality manner) :
    ∀ {ρ : Type} {action : Action σ ρ}, Built manner action → quality.action action
  | _, _, .ofVerdict _ => quality.lazily (quality.pure _)
  | _, _, @Built.new _ _ _ _ _ _ _ builds =>
      quality.building (quality.given builds.code) (fun _ => ⟨_, rfl, quality.pure _⟩)
        fun _ returned => ⟨_, rfl, quality.reported (builds.fine _ returned)
          (fun _ => quality.pure _) (fun _ => ⟨_, rfl, fun _ => quality.pure _⟩)
          fun _ => quality.pure _⟩
  | _, _, .lift builds =>
      quality.building (quality.given builds.code) (fun _ => ⟨_, rfl, quality.pure _⟩)
        fun _ returned => ⟨_, rfl, quality.bind (quality.contained (builds.fine _ returned))
          fun _ => quality.pure _⟩
  | _, _, .map source code => quality.andThen (source.has quality) fun
      | .success value => quality.contain_map (code value) _
      | .failure _ => quality.pure _
  | _, _, .mapError source code => quality.andThen (source.has quality) fun
      | .success _ => quality.pure _
      | .failure error => quality.contain_bind (quality.given (code error))
          (fun _ _ => quality.pure _) fun _ => quality.pure _
  | _, _, .bind source code follows => quality.andThen (source.has quality) fun
      | .success value => quality.contain_bind (quality.given (code value))
          (fun following returned =>
            quality.awaited ((follows value following returned).has quality))
          fun _ => quality.pure _
      | .failure _ => quality.pure _
  | _, _, .resolve source success failure => quality.andThen (source.has quality) fun
      | .success value => quality.contain_map (success value) _
      | .failure error => quality.contain_map (failure error) _
  | _, _, .filter source code => quality.andThen (source.has quality) fun
      | .success value => quality.contain_bind (quality.given (code value))
          (fun
            | true, _ => quality.pure _
            | false, _ => quality.pure _)
          fun _ => quality.pure _
      | .failure _ => quality.pure _
  | _, _, .orElse source instead => quality.andThen (source.has quality) fun
      | .success _ => quality.pure _
      | .failure _ => quality.awaited (instead.has quality)
  | _, _, .join allowed first second code =>
      quality.both allowed (first.has quality) (second.has quality) (quality.joinVerdicts code)
  | _, _, .widen source => quality.andThen (source.has quality) fun _ => quality.pure _
  | _, _, .ofFinding _ => quality.lazily (quality.pure _)
  | _, _, @Built.newSearch _ _ _ _ _ _ _ builds =>
      quality.building (quality.given builds.code) (fun _ => ⟨_, rfl, quality.pure _⟩)
        fun _ returned => ⟨_, rfl, quality.reported (builds.fine _ returned)
          (fun _ => quality.pure _) (fun _ => ⟨_, rfl, fun _ => quality.pure _⟩)
          fun _ => quality.pure _⟩
  | _, _, .liftSearch builds =>
      quality.building (quality.given builds.code) (fun _ => ⟨_, rfl, quality.pure _⟩)
        fun _ returned => ⟨_, rfl, quality.bind (quality.contained (builds.fine _ returned))
          fun _ => quality.pure _⟩
  | _, _, .mapSearch source code => quality.andThen (source.has quality) fun
      | .found value => quality.contain_map (code value) _
      | .absent => quality.pure _
      | .failed _ => quality.pure _
  | _, _, .bindSearch source code follows => quality.andThen (source.has quality) fun
      | .found value => quality.contain_bind (quality.given (code value))
          (fun following returned =>
            quality.awaited ((follows value following returned).has quality))
          fun _ => quality.pure _
      | .absent => quality.pure _
      | .failed _ => quality.pure _
  | _, _, .resolveSearch source found absent failed => quality.andThen (source.has quality) fun
      | .found value => quality.contain_map (found value) _
      | .absent => quality.contain_map absent _
      | .failed error => quality.contain_map (failed error) _
  | _, _, .filterSearch source code => quality.andThen (source.has quality) fun
      | .found value => quality.contain_bind (quality.given (code value))
          (fun
            | true, _ => quality.pure _
            | false, _ => quality.pure _)
          fun _ => quality.pure _
      | .absent => quality.pure _
      | .failed _ => quality.pure _
  | _, _, .orElseSearch source instead => quality.andThen (source.has quality) fun
      | .found _ => quality.pure _
      | .absent => quality.awaited (instead.has quality)
      | .failed _ => quality.awaited (instead.has quality)
  | _, _, .joinSearch allowed first second code =>
      quality.both allowed (first.has quality) (second.has quality) (quality.joinFindings code)
  | _, _, .narrow source => quality.andThen (source.has quality) fun _ => quality.pure _
  | _, _, @Built.cached _ _ _ _ _ _ _ source place => quality.cached place (source.has quality)
  | _, _, @Built.cachedAlone _ _ _ _ _ _ _ allowed source place =>
      quality.cachedAlone allowed place (source.has quality)
  | _, _, @Built.retried _ _ _ _ _ _ source plan => quality.retried (source.has quality) plan
  | _, _, .gather allowed source => quality.gather allowed (source.has quality)
  | _, _, .visit allowed source code =>
      quality.visit allowed (source.has quality) fun value => quality.given (code value)

theorem BuiltFeed.has (quality : Quality manner) :
    ∀ {α : Type} {feed : Feed σ α}, BuiltFeed manner feed → quality.feed feed
  | _, _, .own starts => quality.own starts
  | _, _, .ofList values => quality.ofList values
  | _, _, .never => quality.never
  | _, _, .ofAttempt source => quality.ofAttempt (source.has quality)
  | _, _, .map source code =>
      quality.map (source.has quality) fun value => quality.given (code value)
  | _, _, .filter source code =>
      quality.filter (source.has quality) fun value => quality.given (code value)
  | _, _, .append source next => quality.append (source.has quality) (next.has quality)
  | _, _, .merge handsOut sources =>
      quality.merge handsOut fun feed member => (sources feed member).has quality

end

end Deferred
