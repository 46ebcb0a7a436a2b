import Deferred.Script.Program
import Deferred.Script.Trial
import Deferred.Proofs.Boundary.Containment
import Deferred.Proofs.Boundary.Calls
import Deferred.Proofs.Boundary.Ledger
import Deferred.Proofs.Cache.AloneProgram
import Deferred.Proofs.Cache.SharedProgram
import Deferred.Proofs.Merge.Advance
import Deferred.Proofs.Retry
import Deferred.Proofs.Backoff
import Deferred.Proofs.Cache.Racers
import Deferred.Proofs.Laws.Sequencing
import Deferred.Proofs.Merge.Panics
import Deferred.Proofs.Pace.InStep
import Deferred.Proofs.Pace.Private
import Deferred.Proofs.Pace.Programs
import Deferred.Proofs.Laws.Widening
import Deferred.Proofs.Pace.Uses
import Deferred.Proofs.Cache.Retrying
import Deferred.Proofs.Likeness.Futures
import Deferred.Proofs.Likeness.Branches
import Deferred.Proofs.Likeness.Actions
import Deferred.Proofs.Likeness.Blindness
import Deferred.Proofs.Cache.Policies
import Deferred.Proofs.Apart.Completion
import Deferred.Proofs.Apart.Division
import Deferred.Proofs.Apart.Halves
import Deferred.Proofs.Apart.Tracks
import Deferred.Proofs.Apart.Meeting
import Deferred.Proofs.Apart.Join
import Deferred.Proofs.Precedence
import Deferred.Proofs.Trees.Course
import Deferred.Proofs.Laws.Repetition
import Deferred.Proofs.Feeds.Recipe
import Deferred.Proofs.Laws.Pipelines
import Deferred.Proofs.Laws.Filters
import Deferred.Proofs.Laws.Handlers
import Deferred.Proofs.Laws.Results
import Deferred.Proofs.Cancelling.Sharing
import Deferred.Proofs.Cache.FirstGood
import Deferred.Proofs.Errors
