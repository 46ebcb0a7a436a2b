import Deferred.Feed
import Deferred.Search
import Deferred.Script.Function

/-! Scripted leaves: logic that says for each of its calls what it does and how it ends, and feeds
that say the same for each of their items. Both leave marks in the journal, numbered by call. -/

namespace Deferred.Script

/-- An error that scripted logic returns: one of the user's own, or one of the library's. -/
inductive Reason where
  | cause (cause : Cause)
  | error (error : Error)

instance : IsError Reason where
  toError
    | .cause cause => .new cause
    | .error error => .new error

inductive Finish where
  | value (value : Value)
  | callNumber
  | nothing
  | reason (reason : Reason)
  | panic (payload : Payload)

structure LogicRun where
  buildPanic : Option Payload
  sleep : Nat
  forever : Bool
  cancel : Option String
  finish : Finish

/-- The behaviour of the first calls one by one; the last one stands for all that follow. -/
structure Logic where
  id : String
  runs : List LogicRun

def cancelNamed : Option String → Code World Unit
  | none => return
  | some token => do (← World.cancellation token).cancel

def panicIf {α : Type} (payload : Option Payload) (otherwise : Code World α) : Code World α :=
  match payload with
  | some payload => Code.panic payload
  | none => otherwise

def LogicRun.future (run : LogicRun) (id : String) (call : Nat) :
    Future World (Except Reason (Option Value)) := do
  mark (.started id call)
  pause run.sleep
  if run.forever then Future.never
  cancelNamed run.cancel
  mark (.ended id call)
  match run.finish with
  | .value value => return .ok (some value)
  | .callNumber => return .ok (some (.ofNat call))
  | .nothing => return .ok none
  | .reason reason => return .error reason
  | .panic payload => Future.panic payload

namespace Logic

def start (logic : Logic) : Code World (Future World (Except Reason (Option Value))) := do
  let call ← World.count logic.id
  mark (.built logic.id call)
  match logic.runs[call - 1]? <|> logic.runs.getLast? with
  | none => return Future.never
  | some run => panicIf run.buildPanic (return run.future logic.id call)

/-- For actions without absence, a run that ends in nothing ends in the value null. -/
def startTotal (logic : Logic) : Code World (Future World (Except Reason Value)) := do
  let future ← logic.start
  return (Except.map (·.getD .null)) <$> future

/-- For actions without errors of their own, a returned error is a panic with its text. -/
def orPanic {α : Type} (future : Future World (Except Reason α)) : Future World α := do
  match ← future with
  | .ok value => return value
  | .error reason => Future.panic (.owned (Error.new reason).text)

def attempt (logic : Logic) : Attempt World Value := .new logic.startTotal

def search (logic : Logic) : Search World Value := .new logic.start

def liftedAttempt (logic : Logic) : Attempt World Value :=
  .lift do return orPanic (← logic.startTotal)

def liftedSearch (logic : Logic) : Search World Value :=
  .lift do return orPanic (← logic.start)

end Logic

structure FeedItem where
  sleep : Nat
  panic : Option Payload
  forever : Bool
  cancel : Option String
  value : Value

inductive FeedPlan where
  | items (items : List FeedItem)
  | every (millis : Nat)

structure FeedScript where
  id : String
  openPanic : Option Payload
  plan : FeedPlan

def FeedItem.future (item : FeedItem) (id : String) (run index : Nat) : Future World Value := do
  pause item.sleep
  panicIf item.panic (return ())
  if item.forever then Future.never
  cancelNamed item.cancel
  mark (.item id run index)
  return item.value

namespace FeedScript

def itemsFrom (id : String) (run : Nat) : Nat → List FeedItem → Flow World Value
  | _, [] => .empty
  | index, item :: items => .cons (item.future id run index) (itemsFrom id run (index + 1) items)

/-- Counts from zero through all the words that are not negative, one every so often. -/
def ticksFrom (id : String) (run millis : Nat) : Nat → Nat → Flow World Value
  | _, 0 => .never
  | index, left + 1 =>
      .cons (FeedItem.future ⟨millis, none, false, none, .ofNat index⟩ id run index)
        (ticksFrom id run millis (index + 1) left)

def feed (script : FeedScript) : Feed World Value where
  start := do
    let run ← World.count script.id
    mark (.opened script.id run)
    panicIf script.openPanic <| return match script.plan with
      | .items items => itemsFrom script.id run 0 items
      | .every millis => ticksFrom script.id run millis 0 (UInt64.size / 2)

end FeedScript
end Deferred.Script
