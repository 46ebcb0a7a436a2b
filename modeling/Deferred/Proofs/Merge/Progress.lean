import Deferred.Proofs.Merge.Conservation
import Deferred.Proofs.Merge.Termination
import Deferred.Proofs.Merge.Wakeups

/-! A merged run gets to its end. If none of its feeds waits for ever, some part of it can go on for
as long as the consumer is there and has not ended: a consumer that waits and is not called waits
for the supervisor, which waits for the inputs. -/

namespace Deferred

variable {σ α : Type}

/-- Wherever a run of the feed may stop, some state lets it go on. -/
def Feed.Ends (feed : Feed σ α) : Prop :=
  ∀ items cursor, feed.Gives items cursor → ∃ state, cursor.wait.opens state = true

namespace Merge

variable {feeds : List (Feed σ α)} {run : Run σ α}

theorem Stage.goes_on {stage : Stage σ α} {feed : Feed σ α} {items : List α} (ends : feed.Ends)
    (follows : stage.Follows feed items) (running : stage.isDone = false) (index : Nat)
    (alive : Prop) (hub : Hub α) :
    ∃ produced pushed next after, Stage.Step index alive stage hub produced pushed next after := by
  cases stage with
  | pulls cursor =>
    obtain ⟨state, opens⟩ := ends items cursor follows
    exact ⟨_, _, _, _, .pull opens⟩
  | holds value rest =>
    by_cases there : alive
    · exact ⟨_, _, _, _, .upgrade there⟩
    · exact ⟨_, _, _, _, .refuse there⟩
  | pushes value rest => exact ⟨_, _, _, _, .push⟩
  | signals rest => exact ⟨_, _, _, _, .signal⟩
  | releases rest => exact ⟨_, _, _, _, .release⟩
  | leaves fate => exact ⟨_, _, _, _, .leave⟩
  | done fate => cases running

theorem Supervisor.goes_on {supervisor : Supervisor} {inputs : Nat} (born : supervisor ≠ .unborn)
    (present : supervisor ≠ .done) (bound : ∀ index, supervisor = .reports index → index ≤ inputs)
    (alive : Prop) {hub : Hub α} (ended : supervisor = .awaits → hub.ends.length = inputs) :
    ∃ recorded next after, Supervisor.Step inputs alive supervisor hub recorded next after := by
  cases supervisor with
  | unborn => exact absurd rfl born
  | awaits => exact ⟨_, _, _, .join (ended rfl)⟩
  | reports index =>
    rcases Nat.lt_or_eq_of_le (bound index rfl) with left | rfl
    · exact ⟨_, _, _, .report left⟩
    · exact ⟨_, _, _, .reported⟩
  | upgrades =>
    by_cases there : alive
    · exact ⟨_, _, _, .upgrade there⟩
    · exact ⟨_, _, _, .gone there⟩
  | closes => exact ⟨_, _, _, .close⟩
  | signals => exact ⟨_, _, _, .signal⟩
  | done => exact absurd rfl present

theorem Consumer.goes_on {consumer : Consumer} (past : consumer ≠ .launches)
    (present : consumer.isGone = false) {flag : Flag} {hub : Hub α}
    (called : ∀ seen, consumer = .waits seen →
      hub.signal.isCalled = true ∨ flag.calls seen = true) :
    ∃ yielded next after, Consumer.Step flag consumer hub yielded next after := by
  cases consumer with
  | launches => exact absurd rfl past
  | looks =>
    cases raised : flag.raised with
    | true => exact ⟨_, _, _, .cancelled raised⟩
    | false => exact ⟨_, _, _, .look raised⟩
  | pops =>
    rcases popped : hub.pop with ⟨_ | value, rest⟩
    · exact ⟨_, _, _, .none popped⟩
    · exact ⟨_, _, _, .item popped⟩
  | checks =>
    cases running : hub.running with
    | true => exact ⟨_, _, _, .runs running⟩
    | false => exact ⟨_, _, _, .closed running⟩
  | drains =>
    rcases popped : hub.pop with ⟨_ | value, rest⟩
    · exact ⟨_, _, _, .finish popped⟩
    · exact ⟨_, _, _, .last popped⟩
  | selects =>
    rcases listened : hub.listen with ⟨_ | _, rest⟩
    · exact ⟨_, _, _, .listen listened⟩
    · exact ⟨_, _, _, .heard listened⟩
  | subscribes =>
    cases raised : flag.raised with
    | true => exact ⟨_, _, _, .stop raised⟩
    | false => exact ⟨_, _, _, .wait raised⟩
  | listens seen =>
    rcases listened : hub.listen with ⟨_ | _, rest⟩
    · exact ⟨_, _, _, .waitLate listened⟩
    · exact ⟨_, _, _, .heardLate listened⟩
  | waits seen =>
    rcases called seen rfl with answered | obeyed
    · exact ⟨_, _, _, .answer answered⟩
    · exact ⟨_, _, _, .obey obeyed⟩
  | rests => exact ⟨_, _, _, .again⟩
  | ended close => cases present
  | dropped => cases present

/-- While the consumer is there and the mark is not set, the supervisor has begun and is not
over. -/
theorem Reachable.supervisor_stands (reached : Reachable feeds run)
    (past : run.consumer ≠ .launches) (present : run.consumer.isGone = false)
    (running : run.hub.running = true) : run.supervisor ≠ .unborn ∧ run.supervisor ≠ .done := by
  obtain ⟨launched, closing⟩ := reached.lifecycle
  have attached : run.hub.attached = true := by rw [closing.attached, present]; rfl
  refine ⟨fun unborn => ?_, fun done => ?_⟩
  · rcases launched.born unborn with launches | dropped
    · exact past launches
    · rw [dropped] at present
      cases present
  · have marked := closing.marked (by rw [done]; rfl) attached
    rw [running] at marked
    cases marked

/-- When all inputs are over, as many ends are noted. -/
theorem Reachable.ends_eq (reached : Reachable feeds run) (born : run.supervisor ≠ .unborn)
    (done : ∀ input ∈ run.inputs, input.stage.isDone = true) :
    run.hub.ends.length = feeds.length := by
  obtain ⟨launched, closing⟩ := reached.lifecycle
  have count := congrArg List.length (launched.all born)
  rw [List.length_map] at count
  rw [closing.ends, ← count]
  exact List.countP_eq_length.mpr done

/-- While the consumer is there the inputs and the supervisor go on until the mark is set. -/
theorem Reachable.others_go_on (reached : Reachable feeds run)
    (ends : ∀ feed ∈ feeds, feed.Ends) (past : run.consumer ≠ .launches)
    (present : run.consumer.isGone = false) (running : run.hub.running = true) :
    ∃ next, Step feeds run next := by
  obtain ⟨launched, -⟩ := reached.lifecycle
  obtain ⟨born, unmarked⟩ := reached.supervisor_stands past present running
  by_cases done : ∀ input ∈ run.inputs, input.stage.isDone = true
  · obtain ⟨_, _, _, step⟩ :=
      Supervisor.goes_on born unmarked launched.reports run.Alive fun _ => reached.ends_eq born done
    exact ⟨_, .supervisor step⟩
  · push Not at done
    obtain ⟨input, member, left⟩ := done
    obtain ⟨index, here⟩ := List.mem_iff_getElem?.mp member
    have known : input.feed ∈ feeds := List.mem_of_getElem? (launched.feed_eq here)
    obtain ⟨_, _, _, _, step⟩ := Stage.goes_on (ends input.feed known)
      (reached.orderly.2.inputs index input here).1 (Bool.eq_false_iff.mpr left) index
      run.Alive run.hub
    exact ⟨_, .input here step⟩

/-- As long as the consumer has not ended some part of the run can go on. -/
theorem Reachable.goes_on (reached : Reachable feeds run) (ends : ∀ feed ∈ feeds, feed.Ends)
    (present : run.consumer.isGone = false) : ∃ next, Step feeds run next := by
  obtain ⟨launched, -⟩ := reached.lifecycle
  by_cases launches : run.consumer = .launches
  · obtain ⟨rest, parts⟩ := launched.part
    cases rest with
    | nil => exact ⟨_, .begin launches (by rw [parts, List.append_nil])⟩
    | cons feed rest => exact ⟨_, .launch launches parts⟩
  · by_cases called : ∀ seen, run.consumer = .waits seen →
        run.hub.signal.isCalled = true ∨ run.flag.calls seen = true
    · obtain ⟨_, _, _, step⟩ := Consumer.goes_on launches present called
      exact ⟨_, .consumer step⟩
    · push Not at called
      obtain ⟨seen, waits, uncalled, -⟩ := called
      cases running : run.hub.running with
      | true => exact reached.others_go_on ends launches present running
      | false =>
        rcases (reached.calls_waiting waits).2.1 running with calls | signalling
        · exact absurd calls uncalled
        · cases signals : run.supervisor with
          | signals =>
            have step : Supervisor.Step feeds.length run.Alive run.supervisor run.hub [] .done
                run.hub.notify := signals ▸ .signal
            exact ⟨_, .supervisor step⟩
          | _ => rw [signals] at signalling; cases signalling

end Merge
end Deferred
