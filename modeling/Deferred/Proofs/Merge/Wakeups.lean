import Deferred.Proofs.Merge.Lifecycle

/-! A merged run misses no signal. Between an empty look at the queue and the end of its wait, the
consumer has a signal pending, or somebody is about to give one, as soon as there is an item for
it; the same holds for the mark of the supervisor. A wait for the flag has noted a version of it at
which it was not raised. -/

namespace Deferred.Merge

variable {σ α : Type} {feeds : List (Feed σ α)} {run next : Run σ α}

namespace Consumer

def isListening : Consumer → Bool
  | subscribes => true
  | waits _ => true
  | _ => false

/-- Whether the consumer has found the queue empty and not looked at it again. -/
def hasFoundNothing : Consumer → Bool
  | checks => true
  | selects => true
  | subscribes => true
  | listens _ => true
  | waits _ => true
  | _ => false

/-- Whether the consumer has found the mark not set and not looked at it again. -/
def hasFoundRunning : Consumer → Bool
  | selects => true
  | subscribes => true
  | listens _ => true
  | waits _ => true
  | _ => false

/-- The version of the flag that the consumer has noted. -/
def version? : Consumer → Option Nat
  | listens seen => some seen
  | waits seen => some seen
  | _ => none

end Consumer

def Stage.isSignalling : Stage σ α → Bool
  | signals _ => true
  | _ => false

def Supervisor.isSignalling : Supervisor → Bool
  | signals => true
  | _ => false

end Deferred.Merge

namespace Deferred

/-- A consumer that listens is called or has no signal kept for it, and otherwise nobody
listens. -/
def Signal.Fits (signal : Signal) (listening : Bool) : Prop :=
  match listening with
  | true => signal.isCalled = true ∨ signal = ⟨false, .waiting⟩
  | false => signal.listener = .nobody

theorem Signal.Fits.give {signal : Signal} {listening : Bool} (fits : signal.Fits listening) :
    signal.give.Fits listening := by
  cases listening with
  | false => exact Signal.listener_give_eq_nobody fits
  | true =>
    rcases fits with called | rfl
    · obtain ⟨kept, listener⟩ := signal
      obtain rfl : listener = .called := by simpa [isCalled] using called
      exact .inl rfl
    · exact .inl rfl

/-- Whoever begins to listen has no signal pending. -/
theorem Signal.Fits.not_pending {signal rest : Signal} (fits : signal.Fits false)
    (unheard : signal.listen = (false, rest)) : signal.isPending = false := by
  have nobody : signal.listener = .nobody := fits
  simp [Signal.isPending, Signal.isCalled, nobody, (Signal.listen_eq_false unheard).1]

/-- A flag that was noted at a version at which it was not raised. -/
def Flag.Noted (flag : Flag) (seen : Nat) : Prop :=
  if flag.raised then seen < flag.version else seen = flag.version

theorem Flag.Noted.raise {flag : Flag} {seen : Nat} (noted : flag.Noted seen) :
    flag.raise.Noted seen := by
  unfold Flag.Noted at *
  split at noted
  · exact Nat.lt_succ_of_lt noted
  · exact Nat.lt_succ_of_le (Nat.le_of_eq noted)

theorem Flag.Noted.calls {flag : Flag} {seen : Nat} (noted : flag.Noted seen)
    (raised : flag.raised = true) : flag.calls seen = true := by
  rw [Flag.Noted, if_pos raised] at noted
  simp [Flag.calls, raised, Nat.ne_of_gt noted]

end Deferred

namespace Deferred.Merge

variable {σ α : Type} {feeds : List (Feed σ α)} {run next : Run σ α}

structure Run.Attentive (run : Run σ α) : Prop where
  fits : run.hub.signal.Fits run.consumer.isListening
  noted : ∀ seen, run.consumer.version? = some seen → run.flag.Noted seen
  items : run.consumer.hasFoundNothing = true → run.hub.queue.toList ≠ [] →
    run.hub.signal.isPending = true ∨ ∃ input ∈ run.inputs, input.stage.isSignalling = true
  mark : run.consumer.hasFoundRunning = true → run.hub.running = false →
    run.hub.signal.isPending = true ∨ run.supervisor.isSignalling = true

/-- An input leaves the signal alone or gives one, and after a push it is about to give one. -/
theorem Stage.Step.gives_signal {index : Nat} {alive : Prop} {stage next : Stage σ α}
    {hub after : Hub α} {produced pushed : List α}
    (step : Stage.Step index alive stage hub produced pushed next after) :
    after.signal = hub.signal.give ∨
      after.signal = hub.signal ∧ stage.isSignalling = false ∧
        (pushed = [] ∨ next.isSignalling = true) := by
  cases step with
  | signal => exact .inl rfl
  | push => exact .inr ⟨rfl, rfl, .inr rfl⟩
  | pull | upgrade | refuse | release | leave => exact .inr ⟨rfl, rfl, .inl rfl⟩

theorem Run.Attentive.input (before : run.Attentive) {index : Nat} {input : Input σ α}
    {produced pushed : List α} {stage : Stage σ α} {hub : Hub α}
    (here : run.inputs[index]? = some input)
    (step : Stage.Step index run.Alive input.stage run.hub produced pushed stage hub) :
    Run.Attentive { run with
      inputs := run.inputs.set index { input with stage, produced := input.produced ++ produced }
      hub
      pushed := run.pushed ++ pushed.map (index, ·) } := by
  obtain ⟨bound, rfl⟩ := List.getElem?_eq_some_iff.mp here
  rcases step.gives_signal with given | ⟨same, silent, pushes⟩
  · refine ⟨?_, before.noted, fun _ _ => .inl ?_, fun _ _ => .inl ?_⟩
    · exact given ▸ before.fits.give
    · exact given ▸ Signal.isPending_give _
    · exact given ▸ Signal.isPending_give _
  · refine ⟨same ▸ before.fits, before.noted, fun found filled => ?_, fun found marked => ?_⟩
    · rw [same]
      rcases pushes with rfl | signalling
      · rw [step.toList, List.append_nil] at filled
        refine (before.items found filled).imp_right fun others => ?_
        -- The input that is about to give a signal is not the one that took the step.
        exact exists_mem_set here others fun signalling =>
          absurd (silent.symm.trans signalling) Bool.false_ne_true
      · exact .inr ⟨_, List.mem_set bound _, signalling⟩
    · rw [same]
      exact before.mark found (step.running ▸ marked)

/-- A supervisor leaves the signal alone or gives one, and after it has set the mark it is about to
give one. -/
theorem Supervisor.Step.gives_signal {inputs : Nat} {alive : Prop} {supervisor next : Supervisor}
    {hub after : Hub α} {recorded : List (Nat × Error)}
    (step : Supervisor.Step inputs alive supervisor hub recorded next after) :
    after.signal = hub.signal.give ∨
      after.signal = hub.signal ∧ supervisor.isSignalling = false ∧
        (after.running = hub.running ∨ next.isSignalling = true) := by
  cases step with
  | signal => exact .inl rfl
  | close => exact .inr ⟨rfl, rfl, .inr rfl⟩
  | join | report | reported | upgrade | gone => exact .inr ⟨rfl, rfl, .inl rfl⟩

theorem Run.Attentive.supervisor (before : run.Attentive) {inputs : Nat}
    {recorded : List (Nat × Error)} {supervisor : Supervisor} {hub : Hub α}
    (step : Supervisor.Step inputs run.Alive run.supervisor run.hub recorded supervisor hub) :
    Run.Attentive { run with supervisor, hub, recorded := run.recorded ++ recorded } := by
  rcases step.gives_signal with given | ⟨same, silent, marks⟩
  · refine ⟨?_, before.noted, fun _ _ => .inl ?_, fun _ _ => .inl ?_⟩
    · exact given ▸ before.fits.give
    · exact given ▸ Signal.isPending_give _
    · exact given ▸ Signal.isPending_give _
  · refine ⟨same ▸ before.fits, before.noted, fun found filled => ?_, fun found marked => ?_⟩
    · rw [same]
      exact before.items found (step.frame.1 ▸ filled)
    · rw [same]
      rcases marks with running | signalling
      · rcases before.mark found (running ▸ marked) with pending | signalling
        · exact .inl pending
        · rw [silent] at signalling
          cases signalling
      · exact .inr signalling

section consumer

variable {flag : Flag} {consumer after : Consumer} {hub rest : Hub α} {yielded : List α}

theorem Consumer.Step.fits (step : Consumer.Step flag consumer hub yielded after rest)
    (before : hub.signal.Fits consumer.isListening) : rest.signal.Fits after.isListening := by
  cases step with
  | cancelled | stop | obey => exact Signal.listener_leave _
  | item popped | none popped | last popped =>
    rw [Hub.eq_of_pop popped]
    exact before
  | finish => exact Signal.listener_leave _
  | heard kept | heardLate kept =>
    exact (Signal.listen_eq_true (Hub.eq_of_listen kept).1).trans before
  | listen none | waitLate none =>
    exact .inr (Signal.listen_eq_false (Hub.eq_of_listen none).1).2
  | answer => exact rfl
  | look | runs | closed | wait | skip | subscribe | again => exact before

theorem Consumer.Step.noted (step : Consumer.Step flag consumer hub yielded after rest)
    (before : ∀ seen, consumer.version? = some seen → flag.Noted seen) {seen : Nat}
    (version : after.version? = some seen) : flag.Noted seen := by
  cases step with
  | wait lowered | subscribe lowered =>
    obtain rfl := Option.some.inj version
    rw [Flag.Noted, lowered]
    exact rfl
  | waitLate => exact before seen version
  | cancelled | look | item | none | runs | closed | last | finish | heard | listen | stop | skip
  | heardLate | answer | obey | again => cases version

theorem Consumer.Step.found_nothing (step : Consumer.Step flag consumer hub yielded after rest)
    (fits : hub.signal.Fits consumer.isListening) (found : after.hasFoundNothing = true) :
    rest.queue.toList = [] ∨
      consumer.hasFoundNothing = true ∧ rest.queue = hub.queue ∧
        (rest.signal = hub.signal ∨ hub.signal.isPending = false) := by
  cases step with
  | none popped => exact .inl (Hub.eq_nil_of_pop popped)
  | runs | wait | subscribe => exact .inr ⟨rfl, rfl, .inl rfl⟩
  | listen none | waitLate none =>
    obtain ⟨unheard, same⟩ := Hub.eq_of_listen none
    exact .inr ⟨rfl, same ▸ rfl, .inr (fits.not_pending unheard)⟩
  | cancelled | look | item | closed | last | finish | heard | stop | skip | heardLate | answer
  | obey | again => cases found

theorem Consumer.Step.found_running (step : Consumer.Step flag consumer hub yielded after rest)
    (fits : hub.signal.Fits consumer.isListening) (found : after.hasFoundRunning = true) :
    hub.running = true ∨
      consumer.hasFoundRunning = true ∧
        (rest.signal = hub.signal ∨ hub.signal.isPending = false) := by
  cases step with
  | runs running => exact .inl running
  | wait | subscribe => exact .inr ⟨rfl, .inl rfl⟩
  | listen none | waitLate none =>
    exact .inr ⟨rfl, .inr (fits.not_pending (Hub.eq_of_listen none).1)⟩
  | cancelled | look | item | none | closed | last | finish | heard | stop | skip | heardLate
  | answer | obey | again => cases found

end consumer

theorem Run.Attentive.consumer (before : run.Attentive) {yielded : List α} {consumer : Consumer}
    {hub : Hub α} (step : Consumer.Step run.flag run.consumer run.hub yielded consumer hub) :
    Run.Attentive { run with consumer, hub, yielded := run.yielded ++ yielded } := by
  refine ⟨step.fits before.fits, fun _ => step.noted before.noted, fun found filled => ?_,
    fun found marked => ?_⟩
  · rcases step.found_nothing before.fits found with empty | ⟨already, queue, signal⟩
    · exact absurd empty filled
    · rcases before.items already (queue ▸ filled) with pending | signalling
      · rcases signal with same | silent
        · exact .inl (same ▸ pending)
        · rw [silent] at pending
          cases pending
      · exact .inr signalling
  · have closed : run.hub.running = false := step.frame.1 ▸ marked
    rcases step.found_running before.fits found with running | ⟨already, signal⟩
    · rw [running] at closed
      cases closed
    · rcases before.mark already closed with pending | signalling
      · rcases signal with same | silent
        · exact .inl (same ▸ pending)
        · rw [silent] at pending
          cases pending
      · exact .inr signalling

theorem Step.attentive (step : Step feeds run next) (before : run.Attentive) :
    next.Attentive := by
  cases step with
  | launch here =>
    refine ⟨before.fits, before.noted, ?_, ?_⟩ <;> rw [here] <;> exact nofun
  | begin here =>
    refine ⟨?_, nofun, nofun, nofun⟩
    have fits := before.fits
    rw [here] at fits
    exact fits
  | input here step => exact before.input here step
  | supervisor step => exact before.supervisor step
  | consumer step => exact before.consumer step

theorem Outside.attentive (event : Outside run next) (before : run.Attentive) :
    next.Attentive := by
  cases event with
  | cancel =>
    exact { before with noted := fun seen version => (before.noted seen version).raise }
  | drop may => exact ⟨Signal.listener_leave _, nofun, nofun, nofun⟩

theorem Reachable.attentive (reached : Reachable feeds run) : run.Attentive := by
  induction reached with
  | start => exact ⟨rfl, nofun, nofun, nofun⟩
  | step _ step ih => exact step.attentive ih
  | outside _ event ih => exact event.attentive ih

/-- A consumer that waits, although there is something for it, will be called. -/
theorem Reachable.calls_waiting (reached : Reachable feeds run) {seen : Nat}
    (waits : run.consumer = .waits seen) :
    (run.hub.queue.toList ≠ [] →
      run.hub.signal.isCalled = true ∨ ∃ input ∈ run.inputs, input.stage.isSignalling = true) ∧
    (run.hub.running = false →
      run.hub.signal.isCalled = true ∨ run.supervisor.isSignalling = true) ∧
    (run.flag.raised = true → run.flag.calls seen = true) := by
  obtain ⟨fits, noted, items, mark⟩ := reached.attentive
  rw [waits] at fits noted items mark
  have called : run.hub.signal.isPending = true → run.hub.signal.isCalled = true := by
    intro pending
    rcases fits with called | silent
    · exact called
    · rw [silent] at pending
      cases pending
  exact ⟨fun filled => (items rfl filled).imp_left called,
    fun marked => (mark rfl marked).imp_left called, (noted seen rfl).calls⟩

end Deferred.Merge
