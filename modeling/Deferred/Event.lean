import Deferred.Error
import Deferred.Duration

/-! Diagnostic events of the library: what happened, how grave it is, and the fields that
describe it. -/

namespace Deferred

inductive Level where
  | debug | warn | error
deriving DecidableEq

def Level.name : Level → String
  | debug => "DEBUG"
  | warn => "WARN"
  | error => "ERROR"

inductive Field where
  | number (value : Nat)
  | text (value : String)
  | flag (value : Bool)
deriving DecidableEq

inductive Event where
  | retriesExhausted (attempts : UInt64)
  | backingOff (attempt : UInt64) (delay : Duration)
  | retrying (attempt attempts : UInt64)
  | mergeStarted (producers : Nat)
  | mergeCancelled (dropped : Nat)
  | inputStopped
  | inputPanicked (producer : Nat) (error : Error)
  | inputsFinished
  | computationFailed (error : Error)
deriving DecidableEq

namespace Event

def level : Event → Level
  | inputPanicked .. => .warn
  | computationFailed _ => .error
  | _ => .debug

def message : Event → String
  | retriesExhausted _ => "retry budget exhausted"
  | backingOff .. => "backing off before retry"
  | retrying .. => "retrying failed computation"
  | mergeStarted _ => "merge started"
  | mergeCancelled _ => "merge cancelled"
  | inputStopped => "merge output dropped, input stopped"
  | inputPanicked .. => "merge input panicked"
  | inputsFinished => "merge inputs finished"
  | computationFailed _ => "computation failed"

def fields : Event → List (String × Field)
  | retriesExhausted attempts => [("attempts", .number attempts.toNat)]
  | backingOff attempt delay =>
      [("attempt", .number attempt.toNat), ("delay", .text delay.text)]
  | retrying attempt attempts =>
      [("attempt", .number attempt.toNat), ("attempts", .number attempts.toNat)]
  | mergeStarted producers => [("producers", .number producers)]
  | mergeCancelled dropped => [("dropped", .number dropped)]
  | inputStopped => []
  | inputPanicked producer error =>
      [("producer", .number producer), ("error", .text error.text)]
  | inputsFinished => []
  | computationFailed error =>
      [("error", .text error.text), ("panicked", .flag error.isPanic)]

end Event
end Deferred
