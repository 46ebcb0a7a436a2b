import Deferred.Executor
import Deferred.Script.Expression

/-! Programs: steps that bind names, run computations and look at the world, one after the other
on one thread. Each step has a limit of virtual time, after which it is dropped; tasks spawned by
one step live on in the next. -/

namespace Deferred.Script

/-- How a handler answers, once it has made a value of what it was given. -/
inductive AnswerForm where
  | ready
  | suspended (sleep : Nat) (after : Transform)
  | integer
  | text
  | action (expression : Expression)

/-- `describe` makes a value of an error, where there is one to handle. -/
structure Handler where
  describe : Describe
  first : Option Transform
  form : AnswerForm

inductive Answer where
  | ready (ready : Ready Value)
  | suspended (suspended : Suspended World Value)
  | integer (value : Int64)
  | text (value : String)
  | action (action : Action World Value)

instance : Projects World Answer Value where
  project
    | .ready ready => Projects.project ready
    | .suspended suspended => Projects.project suspended
    | .integer value => do return Value.int <$> (← Projects.project value)
    | .text value => do return Value.text <$> (← Projects.project value)
    | .action action => Projects.project action

namespace Handler

def answer (bindings : Bindings) (handler : Handler) (value : Value) : Code World Answer := do
  let value ← match handler.first with
    | some f => f.run value
    | none => pure value
  match handler.form with
  | .ready => return .ready ⟨value⟩
  | .suspended sleep after => return .suspended ⟨do
      pause sleep
      after.run value⟩
  | .integer => return .integer (← integer value)
  | .text => return .text value.compact
  | .action expression => return .action (← expression.build bindings).action

def onError (bindings : Bindings) (handler : Handler) (error : Error) : Code World Answer := do
  handler.answer bindings (← handler.describe.run error)

end Handler

inductive Step where
  | bindComputation (name : String) (expression : Expression)
  | bindFeed (name : String) (feed : FeedExpression)
  | bindToken (name : String) (shared : Option String)
  | bindScope (name : String) (shared : Option String)
  | run (expression : Expression)
  | all (expressions : List Expression)
  | within (millis : Nat) (expression : Expression)
  | start (slot : String) (expression : Expression)
  | finish (slot : String)
  | drop (slot : String)
  | handle (expression : Expression) (onValue onAbsent onError : Handler)
  | foldInto (expression : Expression) (state : Value) (combine : Combine)
  | valueD (expression : Expression) (default : Value)
  | valueOr (expression : Expression) (describe : Describe)
  | showComputation (expression : Expression)
  | showFeed (feed : FeedExpression)
  | sleep (millis : Nat)
  | cancel (token : String)
  | isCancelled (token : String)
  | cancelScope (scope : String)
  | isScopeCancelled (scope : String)
  | openFeed (slot : String) (feed : FeedExpression)
  | next (slot : String)
  | close (slot : String)

/-- A step and the milliseconds that it may take. -/
structure TimedStep where
  limit : Nat
  step : Step

inductive Reply where
  | value (value : Value)
  | timedOut
  | limitReached
  | missing
  | item (value : Value)
  | ended
  | panicked (payload : Payload)

/-- The text of a panic that nobody has contained. -/
def panicText (payload : Payload) : String :=
  payload.text?.getD "(not text)"

/-- An opened feed: still running, or ended and only to be released. -/
inductive OpenFlow where
  | running (cursor : Cursor World Value)
  | ended (release : World → World)

def OpenFlow.release : OpenFlow → World → World
  | running cursor => cursor.wait.release
  | ended release => release

structure Session where
  world : World
  crew : Crew World
  bindings : Bindings
  futures : List (String × Future World Value)
  flows : List (String × OpenFlow)

namespace Session

variable {α : Type}

def initial (traced : Bool) : Session :=
  ⟨.initial traced, .empty, .empty, [], []⟩

def without (slot : String) (slots : List (String × α)) : List (String × α) :=
  slots.filter (·.1 != slot)

/-- Runs code to its end. -/
def perform (session : Session) (code : Code World α) (next : α → Session → Reply × Session) :
    Reply × Session :=
  match code session.world with
  | (.ok value, world) => next value { session with world }
  | (.error payload, world) => (.panicked payload, { session with world })

/-- Drives a future to its end while the tasks of the session run along. -/
def await (session : Session) (limit : Nat) (future : Future World Reply) : Reply × Session :=
  let (ending, crew, world) := execute session.crew (future.within limit) session.world
  let after := { session with crew, world }
  match ending with
  | .finished (some reply) => (reply, after)
  | .finished none => (.limitReached, after)
  | .panicked payload => (.panicked payload, after)
  | .stuck => (.limitReached, after)

def awaitValue (session : Session) (limit : Nat) (future : Future World Value) : Reply × Session :=
  session.await limit (.value <$> future)

def callAll (bindings : Bindings) : List Expression → Code World (List (Future World Value))
  | [] => return []
  | expression :: rest => do
      let action ← expression.toRun bindings
      let future ← action.call
      return future :: (← callAll bindings rest)

def handling (bindings : Bindings) (onValue onAbsent onError : Handler) :
    Computation → Future World Value
  | .attempt attempt => attempt.handle (onValue.answer bindings) (onError.onError bindings)
  | .search search =>
      search.handle (onValue.answer bindings) (fun _ => onAbsent.answer bindings .null)
        (onError.onError bindings)

def folding (state : Value) (combine : Combine) : Computation → Future World Value
  | .attempt attempt => attempt.foldInto state combine.run
  | .search search => search.foldInto state combine.run

def defaulting (default : Value) : Computation → Future World Value
  | .attempt attempt => attempt.valueD default
  | .search search => search.valueD default

/-- Pulls the next item of an opened feed. -/
def pull (session : Session) (limit : Nat) (slot : String) (cursor : Cursor World Value) :
    Reply × Session :=
  let keep := fun (flow : OpenFlow) (session : Session) =>
    { session with flows := (slot, flow) :: without slot session.flows }
  let (ending, crew, world) := execute session.crew (cursor.pull limit) session.world
  let after := { session with crew, world }
  match ending with
  | .finished (.item value rest) => (.item value, keep (.running rest) after)
  | .finished .ended => (.ended, keep (.ended id) after)
  | .finished (.panicked payload release) => (.panicked payload, keep (.ended release) after)
  | .finished (.late rest) => (.limitReached, keep (.running rest) after)
  | .panicked payload => (.panicked payload, after)
  | .stuck => (.limitReached, after)

def closeFlow (session : Session) (slot : String) : Session :=
  match session.flows.lookup slot with
  | none => session
  | some flow =>
      { session with
        world := flow.release session.world
        flows := without slot session.flows }

def bound (session : Session) (bind : Bindings → Bindings) : Session :=
  { session with bindings := bind session.bindings }

def texts (display debug : String) : Reply :=
  .value (.list [.text display, .text debug])

def nothing : Reply := .value .null

/-- Does one step, whose future may take the given time. -/
def step (session : Session) (limit : Nat) : Step → Reply × Session
  | .bindComputation name expression =>
      session.perform (expression.build session.bindings) fun computation session =>
        (nothing, session.bound fun bindings =>
          { bindings with computations := (name, computation) :: bindings.computations })
  | .bindFeed name feed =>
      session.perform (feed.build session.bindings) fun feed session =>
        (nothing, session.bound fun bindings =>
          { bindings with feeds := (name, feed) :: bindings.feeds })
  | .bindToken name shared =>
      session.perform (World.register name shared) fun _ session => (nothing, session)
  | .bindScope name shared =>
      session.perform (World.register name shared) fun cancellation session =>
        (nothing, session.bound fun bindings =>
          { bindings with scopes := (name, ⟨cancellation⟩) :: bindings.scopes })
  | .run expression =>
      session.awaitValue limit do
        let action ← expression.toRun session.bindings
        action.awaited
  | .all expressions =>
      session.awaitValue limit do
        let futures ← callAll session.bindings expressions
        return .list (← Future.all futures)
  | .within millis expression =>
      session.await limit do
        let action ← expression.toRun session.bindings
        let future ← action.call
        match ← future.within millis with
        | some value => return .value value
        | none => return .timedOut
  | .start slot expression =>
      session.perform (do (← expression.toRun session.bindings).call) fun future session =>
        (nothing, { session with futures := (slot, future) :: without slot session.futures })
  | .finish slot =>
      match session.futures.lookup slot with
      | none => (.missing, session)
      | some future =>
          awaitValue { session with futures := without slot session.futures } limit future
  | .drop slot => (nothing, { session with futures := without slot session.futures })
  | .handle expression onValue onAbsent onError =>
      session.awaitValue limit do
        handling session.bindings onValue onAbsent onError
          (← expression.build session.bindings)
  | .foldInto expression state combine =>
      session.awaitValue limit do
        folding state combine (← expression.build session.bindings)
  | .valueD expression default =>
      session.awaitValue limit do
        defaulting default (← expression.build session.bindings)
  | .valueOr expression describe =>
      session.awaitValue limit do
        let attempt ← (do (← expression.build session.bindings).toAttempt : Code World _)
        attempt.valueOr describe.run
  | .showComputation expression =>
      session.perform (expression.build session.bindings) fun computation session =>
        (texts computation.display computation.debug, session)
  | .showFeed feed =>
      session.perform (feed.build session.bindings) fun _ session =>
        (texts "<Producer>" "Producer \x7b .. \x7d", session)
  | .sleep millis => session.awaitValue limit do
      pause millis
      return .null
  | .cancel token =>
      session.perform (do (← World.cancellation token).cancel) fun _ session => (nothing, session)
  | .isCancelled token =>
      session.perform (World.cancellation token) fun cancellation session =>
        (.value (.bool (cancellation.isCancelled session.world)), session)
  | .cancelScope name =>
      session.perform (do (← session.bindings.scope name).cancel) fun _ session =>
        (nothing, session)
  | .isScopeCancelled name =>
      session.perform (session.bindings.scope name) fun scope session =>
        (.value (.bool (scope.cancellation.isCancelled session.world)), session)
  | .openFeed slot feed =>
      session.perform (do (← feed.build session.bindings).start) fun flow session =>
        let closed := session.closeFlow slot
        (nothing, { closed with flows := (slot, .running flow.cursor) :: closed.flows })
  | .next slot =>
      match session.flows.lookup slot with
      | none => (.missing, session)
      | some (.ended _) => (.ended, session)
      | some (.running cursor) => session.pull limit slot cursor
  | .close slot => (nothing, session.closeFlow slot)

/-- What can be seen of a step: its reply, the time after it, and what has happened since the step
before. -/
structure Report where
  reply : Reply
  time : Nat
  entries : List Entry

def reported (session : Session) (step : TimedStep) : Report × Session :=
  let (reply, after) := session.step step.limit step.step
  (⟨reply, after.world.time, after.world.journal.toList⟩,
    { after with world := { after.world with journal := #[] } })

def runAll : List TimedStep → Session → List Report
  | [], _ => []
  | step :: steps, session =>
      let (report, after) := session.reported step
      report :: runAll steps after

end Session

/-- Runs a program from the start of time. -/
def runProgram (traced : Bool) (steps : List TimedStep) : List Session.Report :=
  Session.runAll steps (.initial traced)

end Deferred.Script
