import Deferred.Duration

/-! How often a failing computation is run again, and how long to wait in between. A plan counts
runs, the first included, and always allows that first one. -/

namespace Deferred

inductive RetryPlan where
  | atOnce (budget : UInt64)
  | doubling (initial : Duration) (budget : UInt64)
deriving DecidableEq

namespace RetryPlan

def budget : RetryPlan → UInt64
  | atOnce budget => budget
  | doubling _ budget => budget

/-- The greatest number of runs: a budget of none is a budget of one. -/
def runs (plan : RetryPlan) : UInt64 :=
  if plan.budget = 0 then 1 else plan.budget

/-- How often the initial span is doubled before a retry, at most as often as 32 bits can tell. -/
def doublings (retry : Nat) : UInt32 :=
  if fits : retry - 1 < UInt32.size then .ofNatLT (retry - 1) fits else .ofNat (UInt32.size - 1)

/-- The wait before a retry. The first retry has number one and waits the initial span, each
next one twice as long. -/
def waitBefore (plan : RetryPlan) (retry : Nat) : Option Duration :=
  match plan with
  | atOnce _ => none
  | doubling initial _ => some (initial.doubled (doublings retry))

end RetryPlan
end Deferred
