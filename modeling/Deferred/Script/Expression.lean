import Deferred.Script.Logic
import Deferred.Projection

/-! Expressions for actions and feeds, and what they stand for. An expression is built anew each
time it is met, with fresh cells for its caches; what is bound to a name is built once and shared
by all that name it. -/

namespace Deferred.Script

mutual

inductive Expression where
  | verdict (verdict : Verdict Value)
  | finding (finding : Finding Value)
  | liftedAttempt (logic : Logic)
  | liftedSearch (logic : Logic)
  | attempt (logic : Logic)
  | search (logic : Logic)
  | cancelled (token : String)
  | named (name : String)
  | gather (sorted : Bool) (feed : FeedExpression)
  | visit (visitor : Transform) (feed : FeedExpression)
  | applied (stage : Stage) (times : Nat) (source : Expression)

inductive Stage where
  | map (f : Transform)
  | mapError (f : Amend)
  | bind (next : Continuation)
  | resolve (onValue onAbsent : Transform) (onError : Describe)
  | filter (test : Test)
  | orElse (other : Expression)
  | join (other : Expression) (keyLeft keyRight : Transform) (combine : Combine)
  | widen
  | narrow
  | convert
  | cached
  | cachedAlone
  | retried (plan : RetryPlan)

inductive Continuation where
  | yield (f : Transform)
  | absent
  | fail (error : Error)
  | choose (test : Test) (yes no : Continuation)
  | panic (payload : Payload)
  | expression (expression : Expression)
  | later (sleep : Nat) (f : Transform)
  | chain (first next : Continuation)

inductive FeedExpression where
  | list (items : List Value)
  | range (first limit : Int64)
  | never
  | attempt (expression : Expression)
  | named (name : String)
  | map (f : Transform) (source : FeedExpression)
  | filter (test : Test) (source : FeedExpression)
  | append (first next : FeedExpression)
  | merge (scope : Option String) (inputs : List FeedExpression)
  | scripted (script : FeedScript)

end

/-- An action of either kind. -/
inductive Computation where
  | attempt (attempt : Attempt World Value)
  | search (search : Search World Value)

/-- What names stand for. Computations, feeds and scopes are named apart: one name may stand for one
of each. -/
structure Bindings where
  computations : List (String × Computation)
  feeds : List (String × Feed World Value)
  scopes : List (String × Scope World)

namespace Bindings

def empty : Bindings := ⟨[], [], []⟩

def computation (bindings : Bindings) (name : String) : Code World Computation :=
  match bindings.computations.lookup name with
  | some computation => return computation
  | none => Code.panic (.owned ("no such computation: " ++ name))

def feed (bindings : Bindings) (name : String) : Code World (Feed World Value) :=
  match bindings.feeds.lookup name with
  | some feed => return feed
  | none => Code.panic (.owned ("no such producer: " ++ name))

def scope (bindings : Bindings) (name : String) : Code World (Scope World) :=
  match bindings.scopes.lookup name with
  | some scope => return scope
  | none => Code.panic (.owned ("no such scope: " ++ name))

end Bindings

namespace Computation

def toAttempt : Computation → Code World (Attempt World Value)
  | attempt source => return source
  | search _ => Code.panic (.owned "an attempt is needed here")

def toSearch : Computation → Code World (Search World Value)
  | search source => return source
  | attempt _ => Code.panic (.owned "a search is needed here")

/-- The action with its results as values. -/
def action : Computation → Action World Value
  | attempt source => ⟨do return Value.ofVerdict <$> (← source.call)⟩
  | search source => ⟨do return Value.ofFinding <$> (← source.call)⟩

def display : Computation → String
  | attempt _ => "<TryAsync>"
  | search _ => "<TryOptionAsync>"

def debug : Computation → String
  | attempt _ => "TryAsync \x7b .. \x7d"
  | search _ => "TryOptionAsync \x7b .. \x7d"

def orElse (computation other : Computation) : Code World Computation := do
  match computation with
  | attempt source => return .attempt (source.orElse (← other.toAttempt))
  | search source => return .search (source.orElse (← other.toSearch))

/-- The keys of a join are values, whose comparison has no effect. -/
def sameKey (a b : Value) : Code World Bool :=
  return a == b

def join (computation other : Computation) (keyLeft keyRight : Transform) (combine : Combine) :
    Code World Computation := do
  match computation with
  | attempt left =>
      return .attempt (left.join (← other.toAttempt) keyLeft.run keyRight.run sameKey combine.run)
  | search left =>
      return .search (left.join (← other.toSearch) keyLeft.run keyRight.run sameKey combine.run)

/-- Continues with whatever computation of the same kind the function gives. -/
def bind (computation : Computation) (next : Bool → Value → Code World Computation) :
    Computation :=
  match computation with
  | attempt source => .attempt (source.bind fun value => do (← next false value).toAttempt)
  | search source => .search (source.bind fun value => do (← next true value).toSearch)

def cached : Computation → StateM World Computation
  | attempt source => do
      return .attempt (source.cached (← World.verdictLatchShelf.arena.fresh .empty))
  | search source => do
      return .search (source.cached (← World.findingLatchShelf.arena.fresh .empty))

def cachedAlone : Computation → StateM World Computation
  | attempt source => do
      return .attempt (source.cachedAlone (← World.verdictGateShelf.arena.fresh .fresh))
  | search source => do
      return .search (source.cachedAlone (← World.findingGateShelf.arena.fresh .fresh))

/-- A computation that succeeds with the value. -/
def yielding (optional : Bool) (value : Value) : Computation :=
  if optional then .search (.found value) else .attempt (.success value)

def failing (optional : Bool) (error : Error) : Computation :=
  if optional then .search (.failed error) else .attempt (.failure error)

def later (optional : Bool) (future : Future World Value) : Computation :=
  if optional then .search (.lift (return some <$> future)) else .attempt (.lift (return future))

/-- A step as often as asked for. -/
def repeated (step : Computation → Code World Computation) :
    Nat → Computation → Code World Computation
  | 0, computation => return computation
  | times + 1, computation => do repeated step times (← step computation)

end Computation

/-- The result of gathering as a value. -/
def gathered (sorted : Bool) (items : List Value) : Value :=
  .list (if sorted then Value.sorted items else items)

def rangeOf (first limit : Int64) : List Value :=
  (List.range (limit.toInt - first.toInt).toNat).map fun (offset : Nat) =>
    .int (Int64.ofInt (first.toInt + offset))

mutual

def Expression.build (bindings : Bindings) : Expression → Code World Computation
  | .verdict verdict => return .attempt (.ofVerdict verdict)
  | .finding finding => return .search (.ofFinding finding)
  | .liftedAttempt logic => return .attempt logic.liftedAttempt
  | .liftedSearch logic => return .search logic.liftedSearch
  | .attempt logic => return .attempt logic.attempt
  | .search logic => return .search logic.search
  | .cancelled token => do
      let cancellation ← World.cancellation token
      return .attempt (.lift (return (fun _ => Value.null) <$> cancellation.cancelled))
  | .named name => bindings.computation name
  | .gather sorted feed => do
      let feed ← feed.build bindings
      return .attempt (feed.gather.map fun items => return gathered sorted items)
  | .visit visitor feed => do
      let feed ← feed.build bindings
      let visited := feed.visit fun item => do let _ ← visitor.run item
      return .attempt (visited.map fun _ => return Value.null)
  | .applied stage times source => do
      Computation.repeated (stage.apply bindings) times (← source.build bindings)

def Stage.apply (bindings : Bindings) : Stage → Computation → Code World Computation
  | .map f, .attempt attempt => return .attempt (attempt.map f.run)
  | .map f, .search search => return .search (search.map f.run)
  | .mapError f, computation => do return .attempt ((← computation.toAttempt).mapError f.run)
  | .bind next, computation => return computation.bind fun optional => next.run bindings optional
  | .resolve onValue _ onError, .attempt attempt =>
      return .attempt (attempt.resolve onValue.run onError.run)
  | .resolve onValue onAbsent onError, .search search =>
      return .attempt (search.resolve onValue.run (fun _ => onAbsent.run .null) onError.run)
  | .filter test, .attempt attempt => return .attempt (attempt.filter test.run)
  | .filter test, .search search => return .search (search.filter test.run)
  | .orElse other, computation => do computation.orElse (← other.build bindings)
  | .join other keyLeft keyRight combine, computation => do
      computation.join (← other.build bindings) keyLeft keyRight combine
  | .widen, computation => do return .search (← computation.toAttempt).widen
  | .narrow, computation => do return .attempt (← computation.toSearch).narrow
  | .convert, .attempt attempt => return .search attempt.widen
  | .convert, .search search => return .attempt search.narrow
  | .cached, computation => computation.cached
  | .cachedAlone, computation => computation.cachedAlone
  | .retried plan, .attempt attempt => return .attempt (attempt.retried plan)
  | .retried plan, .search search => return .search (search.retried plan)

def Continuation.run (bindings : Bindings) :
    Continuation → Bool → Value → Code World Computation
  | .yield f, optional, value => do return .yielding optional (← f.run value)
  | .absent, _, _ => return .search .absent
  | .fail error, optional, _ => return .failing optional error
  | .choose test yes no, optional, value => do
      if ← test.run value then yes.run bindings optional value else no.run bindings optional value
  | .panic payload, _, _ => Code.panic payload
  | .expression expression, _, _ => expression.build bindings
  | .later sleep f, optional, value => return .later optional do
      pause sleep
      f.run value
  | .chain first next, optional, value => do
      let computation ← first.run bindings optional value
      return computation.bind fun optional => next.run bindings optional

def FeedExpression.build (bindings : Bindings) : FeedExpression → Code World (Feed World Value)
  | .list items => return .ofList items
  | .range first limit => return .ofList (rangeOf first limit)
  | .never => return .never
  | .attempt expression => do return .ofAttempt (← (← expression.build bindings).toAttempt)
  | .named name => bindings.feed name
  | .map f source => do return (← source.build bindings).map f.run
  | .filter test source => do return (← source.build bindings).filter test.run
  | .append first next => do
      let feed ← first.build bindings
      return feed.append (← next.build bindings)
  | .merge scope inputs => do
      let feeds ← buildAll bindings inputs
      match scope with
      | some name => return .merge World.hubShelf.arena feeds (← bindings.scope name)
      | none => Feed.mergeAll World.hubShelf.arena World.flagShelf.arena feeds
  | .scripted script => return script.feed

def buildAll (bindings : Bindings) : List FeedExpression → Code World (List (Feed World Value))
  | [] => return []
  | feed :: feeds => do
      let first ← feed.build bindings
      return first :: (← buildAll bindings feeds)

end

/-- What a step runs. A sink that stands at the top is run itself; anywhere else its value is made
by one more stage. -/
def Expression.toRun (bindings : Bindings) : Expression → Code World (Action World Value)
  | .gather sorted feed => do
      let feed ← feed.build bindings
      return ⟨do
        let future ← feed.gather.call
        return (fun verdict => Value.ofVerdict (verdict.map (gathered sorted))) <$> future⟩
  | .visit visitor feed => do
      let feed ← feed.build bindings
      let visited := feed.visit fun item => do let _ ← visitor.run item
      return ⟨do
        let future ← visited.call
        return (fun verdict => Value.ofVerdict (verdict.map fun _ => .null)) <$> future⟩
  | expression => do return (← expression.build bindings).action

end Deferred.Script
