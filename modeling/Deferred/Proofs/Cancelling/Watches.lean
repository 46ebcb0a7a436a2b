import Deferred.Proofs.Cache.Program
import Deferred.Proofs.Cancelling.Flags

/-! One wait for a cancellation, beside others who may raise the flag at any moment: before its
first poll, between two polls, and even in the middle of a poll, after it has noted the version and
before it tests the flag. What carries the argument is how often the flag was raised: a wait is
only ever left listening when it has found the flag lowered, so the version that it has noted is
that of a flag never raised, and the first raise calls it. -/

namespace Deferred

variable {σ : Type} [Host σ]

namespace Cancellation

/-- The rest of a look at the flag, when its version has been noted. -/
def test (cancellation : Cancellation σ) (seen : Nat) : Future σ Unit :=
  fun state =>
    if cancellation.isCancelled state then Future.spend state
    else .waiting (cancellation.wait seen) Future.pay state

/-- A look at the flag: its version is noted, and then it is tested. -/
def look (cancellation : Cancellation σ) : Future σ Unit :=
  fun state => cancellation.test (cancellation.flag.get state).version state

/-- A wait looks at the flag in its first poll, or in the first one that affords it. -/
theorem cancelled_eq (cancellation : Cancellation σ) :
    cancellation.cancelled = (do Future.afford; cancellation.look) := rfl

variable {cancellation : Cancellation σ} {state : σ} {count seen : Nat}

omit [Host σ] in
theorem isCancelled_eq (held : cancellation.flag.get state = .raisedTimes count) :
    cancellation.isCancelled state = decide (0 < count) := by
  rw [isCancelled, held]
  rfl

theorem cancelled_of_afford (affords : 0 < Host.allowance state) :
    cancellation.cancelled state = cancellation.look state := by
  rw [cancelled_eq]
  change (Future.afford state).bind _ = _
  rw [Future.afford, if_pos affords]
  rfl

theorem cancelled_of_spent (spent : ¬0 < Host.allowance state) :
    cancellation.cancelled state = .waiting .turn cancellation.look state := by
  rw [cancelled_eq]
  change (Future.afford state).bind _ = _
  rw [Future.afford, if_neg spent]
  rfl

end Cancellation

theorem Future.pay_of_afford {state : σ} (affords : 0 < Host.allowance state) :
    Future.pay state = .ready () (Host.spend state) := by
  change (Future.afford state).bind _ = _
  rw [Future.afford, if_pos affords]
  rfl

theorem Future.pay_of_spent {state : σ} (spent : ¬0 < Host.allowance state) :
    Future.pay state = .waiting .turn Future.spend state := by
  change (Future.afford state).bind _ = _
  rw [Future.afford, if_neg spent]
  rfl

/-! ### Where a wait stands -/

/-- A wait for a cancellation: between two polls, or over; or in the middle of a poll, with the
version that it has noted. -/
inductive Watching (σ : Type) where
  | resting (run : Running σ Unit)
  | looking (seen : Nat)

namespace Watching

/-- What is known of a wait whose flag was raised this many times. -/
inductive Stands (cancellation : Cancellation σ) (count : Nat) : Watching σ → Prop where
  | begun : Stands cancellation count (.resting (.stopped .passed cancellation.cancelled))
  | putOff : Stands cancellation count (.resting (.stopped .turn cancellation.look))
  | looking {seen} (noted : seen ≤ count) : Stands cancellation count (.looking seen)
  | listening :
      Stands cancellation count (.resting (.stopped (cancellation.wait 0) Future.pay))
  | called (raised : 0 < count) : Stands cancellation count (.resting (.stopped .turn Future.spend))
  | ended (raised : 0 < count) : Stands cancellation count (.resting (.answered ()))
  | dropped : Stands cancellation count (.resting .dropped)

/-- Where a poll leaves the wait. All it does to the state is to pay for the end. -/
structure Leaves (cancellation : Cancellation σ) (count : Nat) (state : σ) (poll : Poll σ Unit) :
    Prop where
  stands : Stands cancellation count (.resting poll.running)
  state : poll.state = state ∨ poll.state = Host.spend state

variable {cancellation : Cancellation σ} {state : σ} {count more seen : Nat}
  {watching : Watching σ} {wait : Wait σ} {resume : σ → Poll σ Unit}

theorem Stands.mono (stands : Stands cancellation count watching) (le : count ≤ more) :
    Stands cancellation more watching := by
  cases stands with
  | begun => exact .begun
  | putOff => exact .putOff
  | looking noted => exact .looking (noted.trans le)
  | listening => exact .listening
  | called raised => exact .called (raised.trans_le le)
  | ended raised => exact .ended (raised.trans_le le)
  | dropped => exact .dropped

theorem leaves_test (held : cancellation.flag.get state = .raisedTimes count)
    (noted : seen ≤ count) : Leaves cancellation count state (cancellation.test seen state) := by
  rw [Cancellation.test, Cancellation.isCancelled_eq held]
  by_cases raised : 0 < count
  · simp only [raised, decide_true, ↓reduceIte]
    exact ⟨.ended raised, .inr rfl⟩
  · -- A lowered flag was never raised, so that the noted version is the first one.
    have never : seen = 0 := by omega
    simp only [raised, decide_false, Bool.false_eq_true, ↓reduceIte]
    subst never
    exact ⟨.listening, .inl rfl⟩

theorem leaves_look (held : cancellation.flag.get state = .raisedTimes count) :
    Leaves cancellation count state (cancellation.look state) := by
  rw [Cancellation.look, held]
  exact leaves_test held le_rfl

theorem leaves_cancelled (held : cancellation.flag.get state = .raisedTimes count) :
    Leaves cancellation count state (cancellation.cancelled state) := by
  by_cases affords : 0 < Host.allowance state
  · rw [Cancellation.cancelled_of_afford affords]
    exact leaves_look held
  · rw [Cancellation.cancelled_of_spent affords]
    exact ⟨.putOff, .inl rfl⟩

theorem leaves_pay (raised : 0 < count) : Leaves cancellation count state (Future.pay state) := by
  by_cases affords : 0 < Host.allowance state
  · rw [Future.pay_of_afford affords]
    exact ⟨.ended raised, .inr rfl⟩
  · rw [Future.pay_of_spent affords]
    exact ⟨.called raised, .inl rfl⟩

theorem Stands.poll (stands : Stands cancellation count (.resting (.stopped wait resume)))
    (held : cancellation.flag.get state = .raisedTimes count) (opens : wait.opens state = true) :
    Leaves cancellation count state (resume state) := by
  cases stands with
  | begun => exact leaves_cancelled held
  | putOff => exact leaves_look held
  | listening =>
    change (cancellation.flag.get state).calls 0 = true at opens
    rw [held, Flag.calls_raisedTimes] at opens
    exact leaves_pay (of_decide_eq_true opens)
  | called raised => exact ⟨.ended raised, .inr rfl⟩

/-- A wait holds nothing, so that it can be dropped anywhere. -/
theorem Stands.release (stands : Stands cancellation count (.resting (.stopped wait resume)))
    (state : σ) : wait.release state = state := by
  cases stands <;> rfl

/-! ### Its next turn -/

/-- What a turn in this state makes of the wait, if nothing keeps it from having one. -/
def outlook (cancellation : Cancellation σ) (state : σ) : Watching σ → Option (Running σ Unit)
  | resting (.stopped wait resume) =>
      if wait.opens state then some (resume state).running else none
  | resting _ => none
  | looking seen => some (cancellation.test seen state).running

def Pending : Watching σ → Prop
  | resting (.stopped _ _) | looking _ => True
  | resting _ => False

theorem outlook_eq_some {run : Running σ Unit} (opens : wait.opens state = true)
    (leaves : (resume state).running = run) :
    outlook cancellation state (.resting (.stopped wait resume)) = some run := by
  rw [outlook, if_pos opens, leaves]

theorem outlook_stopped_congr {other : σ} (opens : wait.opens state = wait.opens other)
    (leaves : (resume state).running = (resume other).running) :
    outlook cancellation state (.resting (.stopped wait resume)) =
      outlook cancellation other (.resting (.stopped wait resume)) := by
  rw [outlook, outlook, opens, leaves]

/-- A wait never ends while its flag is lowered. -/
theorem Stands.raised_of_outlook (stands : Stands cancellation count watching)
    (held : cancellation.flag.get state = .raisedTimes count)
    (ends : watching.outlook cancellation state = some (.answered ())) : 0 < count := by
  -- The turn would end the wait, and a wait that has ended has seen the flag raised.
  have ended : Stands cancellation count (.resting (.answered ())) := by
    cases watching with
    | looking seen =>
      cases stands with
      | looking noted =>
        have left := (leaves_test held noted).stands
        rw [Option.some.inj ends] at left
        exact left
    | resting run =>
      cases run with
      | stopped wait resume =>
        by_cases opens : wait.opens state = true
        · have left := (stands.poll held opens).stands
          rw [outlook_eq_some opens rfl] at ends
          rw [Option.some.inj ends] at left
          exact left
        · rw [outlook, if_neg opens] at ends
          cases ends
      | answered | panicked | dropped => cases ends
  cases ended with
  | ended raised => exact raised

theorem afford_refill (state : σ) : 0 < Host.allowance (Host.refill state) := by
  rw [Host.refill, Host.allowance_allow]
  decide

theorem opens_turn_refill (state : σ) : (Wait.turn : Wait σ).opens (Host.refill state) = true :=
  decide_eq_true (afford_refill state)

omit [Host σ] in
theorem opens_wait_eq (held : cancellation.flag.get state = .raisedTimes count) :
    (cancellation.wait 0).opens state = decide (0 < count) := by
  change (cancellation.flag.get state).calls 0 = _
  rw [held, Flag.calls_raisedTimes]

theorem running_test (held : cancellation.flag.get state = .raisedTimes count) :
    (cancellation.test seen state).running =
      if 0 < count then .answered () else .stopped (cancellation.wait seen) Future.pay := by
  rw [Cancellation.test, Cancellation.isCancelled_eq held]
  by_cases raised : 0 < count
  · simp only [raised, decide_true, ↓reduceIte]
    rfl
  · simp only [raised, decide_false, Bool.false_eq_true, ↓reduceIte]
    rfl

theorem running_look (held : cancellation.flag.get state = .raisedTimes count) :
    (cancellation.look state).running =
      if 0 < count then .answered () else .stopped (cancellation.wait 0) Future.pay := by
  rw [Cancellation.look, running_test held, held]
  by_cases raised : 0 < count
  · rw [if_pos raised, if_pos raised]
  · have never : count = 0 := by omega
    subst never
    rfl

theorem running_pay (affords : 0 < Host.allowance state) :
    (Future.pay state).running = .answered () := by
  rw [Future.pay_of_afford affords]
  rfl

/-- In a turn that begins, a wait for a flag that is raised ends. -/
theorem Stands.outlook_of_raised (stands : Stands cancellation count watching)
    (pending : watching.Pending)
    (held : cancellation.flag.get (Host.refill state) = .raisedTimes more) (raised : 0 < more) :
    watching.outlook cancellation (Host.refill state) = some (.answered ()) := by
  have affords := afford_refill state
  have looks : (cancellation.look (Host.refill state)).running = .answered () := by
    rw [running_look held, if_pos raised]
  cases stands with
  | begun =>
    apply outlook_eq_some rfl
    rw [Cancellation.cancelled_of_afford affords, looks]
  | putOff => exact outlook_eq_some (opens_turn_refill state) looks
  | looking => rw [outlook, running_test held, if_pos raised]
  | listening =>
    apply outlook_eq_some _ (running_pay affords)
    rw [opens_wait_eq held]
    exact decide_eq_true raised
  | called => exact outlook_eq_some (opens_turn_refill state) rfl
  | ended | dropped => cases pending

/-- How often the flag was raised makes no difference to a wait, if it was raised at all. -/
theorem Stands.outlook_congr {other : σ} {times : Nat}
    (stands : Stands cancellation count watching)
    (held : cancellation.flag.get (Host.refill state) = .raisedTimes more)
    (heldToo : cancellation.flag.get (Host.refill other) = .raisedTimes times)
    (alike : 0 < more ↔ 0 < times) :
    watching.outlook cancellation (Host.refill state) =
      watching.outlook cancellation (Host.refill other) := by
  have affords := afford_refill state
  have affordsToo := afford_refill other
  have turns := (opens_turn_refill state).trans (opens_turn_refill other).symm
  have looks : (cancellation.look (Host.refill state)).running =
      (cancellation.look (Host.refill other)).running := by
    rw [running_look held, running_look heldToo]
    exact if_congr alike rfl rfl
  cases stands with
  | begun =>
    have cancels : (cancellation.cancelled (Host.refill state)).running =
        (cancellation.cancelled (Host.refill other)).running := by
      rw [Cancellation.cancelled_of_afford affords, Cancellation.cancelled_of_afford affordsToo,
        looks]
    exact outlook_stopped_congr rfl cancels
  | putOff => exact outlook_stopped_congr turns looks
  | looking =>
    rw [outlook, outlook, running_test held, running_test heldToo]
    exact congrArg some (if_congr alike rfl rfl)
  | listening =>
    apply outlook_stopped_congr
    · rw [opens_wait_eq held, opens_wait_eq heldToo, decide_eq_decide.mpr alike]
    · rw [running_pay affords, running_pay affordsToo]
  | called => exact outlook_stopped_congr turns rfl
  | ended | dropped => rfl

end Watching
end Deferred
