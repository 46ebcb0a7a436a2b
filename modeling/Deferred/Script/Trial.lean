import Deferred.Logger
import Deferred.Script.Program

/-! Trials of single parts: results under a sequence of transformations and observations, a latch
under a sequence of offers, loggers, and projections. The functions in them are not contained. -/

namespace Deferred.Script

/-- A result of either kind, as it is being transformed. -/
inductive Subject where
  | verdict (verdict : Verdict Value)
  | finding (finding : Finding Value)

namespace Subject

def encode : Subject → Value
  | verdict source => .ofVerdict source
  | finding source => .ofFinding source

def same : Subject → Subject → Bool
  | verdict a, verdict b => a == b
  | finding a, finding b => a == b
  | _, _ => false

end Subject

/-- A result that fits either kind if it is a failure. -/
inductive Sample where
  | success (value : Value)
  | found (value : Value)
  | absent
  | failure (error : Error)

/-- The sample as a result of the given kind, where it is one. -/
def Sample.subject? (optional : Bool) : Sample → Option Subject
  | success value => if optional then none else some (.verdict (.success value))
  | found value => if optional then some (.finding (.found value)) else none
  | absent => if optional then some (.finding .absent) else none
  | failure error => some (if optional then .finding (.failed error) else .verdict (.failure error))

inductive Probe where
  | map (f : Transform)
  | bind (next : Continuation)
  | mapError (f : Amend)
  | widen
  | narrow
  | roundTrip
  | viaOption
  | isSuccess
  | isFailure
  | isFound
  | isAbsent
  | isAbsentOrFailure
  | hasFailure
  | errorOf
  | toOption
  | toExcept
  | handle (onValue onAbsent : Transform) (onError : Describe)
  | getD (default : Value)
  | recover (substitute : Describe)
  | equals (other : Sample)
  | debug

namespace Probe

def unfit {α : Type} : Code World α :=
  Code.panic (.owned "not for this kind of result")

/-- The verdict that a continuation gives at once. -/
def nextVerdict : Continuation → Value → Code World (Verdict Value)
  | .yield f, value => do return .success (← f.run value)
  | .fail reason, _ => return .failure reason
  | .choose test yes no, value => do
      if ← test.run value then nextVerdict yes value else nextVerdict no value
  | .panic payload, _ => Code.panic payload
  | _, _ => unfit

/-- The finding that a continuation gives at once. -/
def nextFinding : Continuation → Value → Code World (Finding Value)
  | .yield f, value => do return .found (← f.run value)
  | .absent, _ => return .absent
  | .fail reason, _ => return .failed reason
  | .choose test yes no, value => do
      if ← test.run value then nextFinding yes value else nextFinding no value
  | .panic payload, _ => Code.panic payload
  | _, _ => unfit

def okValue (value : Value) : Value := .record [("ok", value)]

def errValue (error : Error) : Value := .record [("err", .ofError error)]

def runVerdict (verdict : Verdict Value) : Probe → Code World (Value × Subject)
  | map f => do return (.null, .verdict (← verdict.mapM f.run))
  | bind next => do return (.null, .verdict (← verdict.bindM (nextVerdict next)))
  | mapError f => do return (.null, .verdict (← verdict.mapErrorM f.run))
  | widen => return (.null, .finding verdict.widen)
  | roundTrip =>
      let result := verdict.toExcept
      let name := match result with
        | .ok _ => "ok"
        | .error _ => "err"
      return (.text name, .verdict (.ofExcept result))
  | viaOption => return (.null, .finding (.ofOption verdict.toOption))
  | isSuccess => return (.bool verdict.isSuccess, .verdict verdict)
  | isFailure => return (.bool verdict.isFailure, .verdict verdict)
  | hasFailure => return (.bool (HasFailure.isFailure verdict), .verdict verdict)
  | errorOf =>
      return ((verdict.error?.map Value.ofError).getD .null, .verdict verdict)
  | toOption => return (.ofOption verdict.toOption, .verdict verdict)
  | toExcept =>
      let shown := match verdict.toExcept with
        | .ok value => okValue value
        | .error error => errValue error
      return (shown, .verdict verdict)
  | handle onValue _ onError => do
      return (← verdict.handle onValue.run onError.run, .verdict verdict)
  | getD default => return (verdict.getD default, .verdict verdict)
  | recover substitute => do return (← verdict.recoverM substitute.run, .verdict verdict)
  | equals other =>
      match other.subject? false with
      | some subject => return (.bool (Subject.same (.verdict verdict) subject), .verdict verdict)
      | none => unfit
  | debug => return (.text (verdict.debug Value.compact), .verdict verdict)
  | _ => unfit

def runFinding (finding : Finding Value) : Probe → Code World (Value × Subject)
  | map f => do return (.null, .finding (← finding.mapM f.run))
  | bind next => do return (.null, .finding (← finding.bindM (nextFinding next)))
  | narrow => return (.null, .verdict finding.narrow)
  | roundTrip =>
      let result := finding.toExcept
      let name := match result with
        | .ok (some _) => "ok some"
        | .ok none => "ok none"
        | .error _ => "err"
      return (.text name, .finding (.ofExcept result))
  | viaOption => return (.null, .finding (.ofOption finding.toOption))
  | isFailure => return (.bool finding.isFailure, .finding finding)
  | isFound => return (.bool finding.isFound, .finding finding)
  | isAbsent => return (.bool finding.isAbsent, .finding finding)
  | isAbsentOrFailure => return (.bool finding.isAbsentOrFailure, .finding finding)
  | hasFailure => return (.bool (HasFailure.isFailure finding), .finding finding)
  | toOption => return (.ofOption finding.toOption, .finding finding)
  | toExcept =>
      let shown := match finding.toExcept with
        | .ok value => okValue (.ofOption value)
        | .error error => errValue error
      return (shown, .finding finding)
  | handle onValue onAbsent onError => do
      return (← finding.handle onValue.run (fun _ => onAbsent.run .null) onError.run,
        .finding finding)
  | getD default => return (finding.getD default, .finding finding)
  | equals other =>
      match other.subject? true with
      | some subject => return (.bool (Subject.same (.finding finding) subject), .finding finding)
      | none => unfit
  | debug => return (.text (finding.debug Value.compact), .finding finding)
  | _ => unfit

def run (probe : Probe) : Subject → Code World (Value × Subject)
  | .verdict verdict => probe.runVerdict verdict
  | .finding finding => probe.runFinding finding

end Probe

/-- What one step of a trial shows. -/
structure Sight where
  reply : Reply
  state : Value
  entries : List Entry

/-- A step that panics leaves the result as it was. -/
def runProbes : List Probe → Subject → World → List Sight
  | [], _, _ => []
  | probe :: probes, subject, world =>
      let (answer, after) := probe.run subject world
      let (reply, left) := match answer with
        | .ok (value, next) => (Reply.value value, next)
        | .error payload => (Reply.panicked payload, subject)
      ⟨reply, left.encode, after.journal.toList⟩ ::
        runProbes probes left { after with journal := #[] }

/-- An offer to a latch with its answer, and the latch afterwards. -/
structure LatchSight (ρ : Type) where
  answer : Option ρ
  isSet : Bool
  kept : Option ρ

def runOffers {ρ : Type} [HasFailure ρ] : List (Option ρ) → Latch ρ → List (LatchSight ρ)
  | [], _ => []
  | none :: offers, latch => ⟨none, latch.isSet, latch.value⟩ :: runOffers offers latch
  | some result :: offers, latch =>
      let (answer, after) := latch.offer result
      ⟨some answer, after.isSet, after.value⟩ :: runOffers offers after

inductive LoggerName where
  | installed
  | silent
  | tracing
  | listening

inductive LoggerStep where
  | install (logger : LoggerName)
  | log (logger : LoggerName) (error : Error)

/-- The logger that every script starts with writes to the journal. -/
def journalLogger : Logger World := Host.record

def LoggerName.logger (registry : Registry World) : LoggerName → Logger World
  | installed => registry.active
  | silent => .silent
  | tracing => .tracing
  | listening => fun error => World.write (.heard error.text)

structure LoggerSight where
  refusal : Option SetupError
  entries : List Entry

def runLoggerSteps : List LoggerStep → Registry World → World → List LoggerSight
  | [], _, _ => []
  | .install name :: steps, registry, world =>
      match registry.install (name.logger registry) with
      | .ok after => ⟨none, []⟩ :: runLoggerSteps steps after world
      | .error refusal => ⟨some refusal, []⟩ :: runLoggerSteps steps registry world
  | .log name error :: steps, registry, world =>
      let after := name.logger registry error world
      ⟨none, after.journal.toList⟩ ::
        runLoggerSteps steps registry { after with journal := #[] }

/-- The loggers of a program into which the journal's has been installed. -/
def startingRegistry : Registry World :=
  match Registry.empty.install journalLogger with
  | .ok registry => registry
  | .error _ => .empty

/-- Projects an answer and waits for it. -/
def projectNow {β ρ : Type} [Projects World β ρ] (answer : β) : Option ρ :=
  match (execute .empty (projected (return answer)) (World.initial false)).1 with
  | .finished value => some value
  | _ => none

end Deferred.Script
