import Deferred.Proofs.Entries
import Deferred.Proofs.Merge.Steps

/-! From the launch of a merged run to its end. The supervisor is born when all inputs are
launched, goes on when all of them are over, and then sets the mark for a consumer that is still
there. So a consumer that has seen the mark drains a queue to which nobody adds. -/

namespace Deferred.Merge

variable {σ α : Type} {feeds : List (Feed σ α)} {run next : Run σ α}

/-- Whether the supervisor has seen all inputs end. -/
def Supervisor.hasJoined : Supervisor → Bool
  | unborn => false
  | awaits => false
  | _ => true

/-- Whether the supervisor has set the mark, or found nobody to set it for. -/
def Supervisor.hasClosed : Supervisor → Bool
  | signals => true
  | done => true
  | _ => false

def Stage.hasStopped : Stage σ α → Bool
  | leaves .stopped => true
  | done .stopped => true
  | _ => false

theorem map_feed_set {inputs : List (Input σ α)} {index : Nat} {input : Input σ α}
    (here : inputs[index]? = some input) (stage : Stage σ α) (produced : List α) :
    (inputs.set index { input with stage, produced }).map Input.feed = inputs.map Input.feed := by
  rw [List.map_set]
  apply List.ext_getElem?
  intro other
  by_cases same : index = other
  · subst same
    have bound := (List.getElem?_eq_some_iff.mp here).1
    rw [List.getElem?_set_self (by rwa [List.length_map]), List.getElem?_map, here]
    rfl
  · rw [List.getElem?_set_ne same]

theorem Consumer.Step.past_launch {flag : Flag} {consumer next : Consumer} {hub after : Hub α}
    {yielded : List α} (step : Consumer.Step flag consumer hub yielded next after) :
    consumer ≠ .launches ∧ next ≠ .launches := by
  cases step <;> exact ⟨Consumer.noConfusion, Consumer.noConfusion⟩

theorem Supervisor.Step.born {inputs : Nat} {alive : Prop} {supervisor next : Supervisor}
    {hub after : Hub α} {recorded : List (Nat × Error)}
    (step : Supervisor.Step inputs alive supervisor hub recorded next after) :
    supervisor ≠ .unborn ∧ next ≠ .unborn := by
  cases step <;> exact ⟨Supervisor.noConfusion, Supervisor.noConfusion⟩

/-! ### Launch -/

structure Run.Launched (feeds : List (Feed σ α)) (run : Run σ α) : Prop where
  part : ∃ rest, feeds = run.inputs.map Input.feed ++ rest
  all : run.supervisor ≠ .unborn → run.inputs.map Input.feed = feeds
  unborn : run.consumer = .launches → run.supervisor = .unborn
  born : run.supervisor = .unborn → run.consumer = .launches ∨ run.consumer = .dropped
  reports : ∀ index, run.supervisor = .reports index → index ≤ feeds.length

theorem Supervisor.Step.reports_le {inputs : Nat} {alive : Prop} {supervisor next : Supervisor}
    {hub after : Hub α} {recorded : List (Nat × Error)}
    (step : Supervisor.Step inputs alive supervisor hub recorded next after) {index : Nat}
    (reports : next = .reports index) : index ≤ inputs := by
  cases step with
  | join =>
    obtain rfl := Supervisor.reports.inj reports
    exact Nat.zero_le _
  | report left =>
    obtain rfl := Supervisor.reports.inj reports
    exact left
  | reported | upgrade | gone | close | signal => cases reports

theorem Step.launched (step : Step feeds run next) (before : run.Launched feeds) :
    next.Launched feeds := by
  cases step with
  | @launch feed rest here left =>
    refine ⟨⟨rest, by simp [left]⟩, ?_, before.unborn, before.born, before.reports⟩
    intro born
    exact absurd (before.unborn here) born
  | begin here all =>
    exact ⟨⟨[], by simp [all]⟩, fun _ => all, nofun, nofun, nofun⟩
  | input here step =>
    refine ⟨?_, ?_, before.unborn, before.born, before.reports⟩
    · rw [map_feed_set here]; exact before.part
    · rw [map_feed_set here]; exact before.all
  | supervisor step =>
    refine ⟨before.part, fun _ => before.all step.born.1, ?_,
      fun unborn => absurd unborn step.born.2, fun _ => step.reports_le⟩
    intro launches
    exact absurd (before.unborn launches) step.born.1
  | consumer step =>
    refine ⟨before.part, before.all, fun launches => absurd launches step.past_launch.2, ?_,
      before.reports⟩
    intro unborn
    rcases before.born unborn with launches | dropped
    · exact absurd launches step.past_launch.1
    · have running := step.attached.1
      rw [dropped] at running
      cases running

theorem Outside.launched (event : Outside run next) (before : run.Launched feeds) :
    next.Launched feeds := by
  cases event with
  | cancel => exact { before with }
  | drop may => exact { before with unborn := nofun, born := fun _ => .inr rfl }

/-! ### End -/

structure Run.Closing (run : Run σ α) : Prop where
  attached : run.hub.attached = !run.consumer.isGone
  ends : run.hub.ends.length = run.inputs.countP (·.stage.isDone)
  joined : run.supervisor.hasJoined = true → ∀ input ∈ run.inputs, input.stage.isDone = true
  stopped : ∀ input ∈ run.inputs, input.stage.hasStopped = true → run.hub.attached = false
  closed : run.hub.running = false → run.supervisor.hasClosed = true
  marked : run.supervisor.hasClosed = true → run.hub.attached = true → run.hub.running = false
  drains : run.consumer = .drains → run.hub.running = false
  cancelled : ∀ count, run.consumer = .ended (.cancelled count) → run.flag.raised = true
  finished : run.consumer = .ended .finished → run.hub.running = false ∧
    run.hub.queue.toList = [] ∧ ∀ input ∈ run.inputs, input.stage.hasStopped = false

theorem Supervisor.hasJoined_of_hasClosed {supervisor : Supervisor}
    (closed : supervisor.hasClosed = true) : supervisor.hasJoined = true := by
  cases supervisor <;> first | rfl | cases closed

/-- Once the mark is set all inputs are over. -/
theorem Run.Closing.all_done (closing : run.Closing) (marked : run.hub.running = false) :
    ∀ input ∈ run.inputs, input.stage.isDone = true :=
  closing.joined (Supervisor.hasJoined_of_hasClosed (closing.closed marked))

theorem Run.Closing.launch (before : run.Closing) (launched : run.Launched feeds)
    (here : run.consumer = .launches) (feed : Feed σ α) :
    Run.Closing { run with
      inputs := run.inputs ++ [⟨feed, .pulls feed.flow.cursor, []⟩] } where
  attached := before.attached
  ends := by simp [before.ends, List.countP_append, Stage.isDone]
  joined joined := by rw [launched.unborn here] at joined; cases joined
  stopped input member stopped := by
    rcases List.mem_append.mp member with old | new
    · exact before.stopped input old stopped
    · obtain rfl := List.mem_singleton.mp new
      cases stopped
  closed := before.closed
  marked := before.marked
  drains := before.drains
  cancelled := before.cancelled
  finished ended := by rw [here] at ended; cases ended

theorem Run.Closing.begin (before : run.Closing) (launched : run.Launched feeds)
    (here : run.consumer = .launches) :
    Run.Closing { run with supervisor := .awaits, consumer := .looks } where
  attached := by rw [before.attached, here]; rfl
  ends := before.ends
  joined := nofun
  stopped := before.stopped
  closed marked := by
    have closed := before.closed marked
    rw [launched.unborn here] at closed
    cases closed
  marked := nofun
  drains := nofun
  cancelled := nofun
  finished := nofun

theorem Stage.Step.stops {index : Nat} {alive : Prop} {stage next : Stage σ α}
    {hub after : Hub α} {produced pushed : List α}
    (step : Stage.Step index alive stage hub produced pushed next after)
    (stopped : next.hasStopped = true) : stage.hasStopped = true ∨ ¬alive := by
  cases step with
  | @pull cursor _ state opens =>
    cases node : cursor.resume state <;> rw [node] at stopped <;> cases stopped
  | refuse gone => exact .inr gone
  | @leave fate _ => cases fate <;> first | exact .inl rfl | cases stopped
  | upgrade | push | signal | release => cases stopped

theorem Run.Closing.input (before : run.Closing) {index : Nat} {input : Input σ α}
    {produced pushed : List α} {stage : Stage σ α} {hub : Hub α}
    (here : run.inputs[index]? = some input)
    (step : Stage.Step index run.Alive input.stage run.hub produced pushed stage hub) :
    Run.Closing { run with
      inputs := run.inputs.set index { input with stage, produced := input.produced ++ produced }
      hub
      pushed := run.pushed ++ pushed.map (index, ·) } := by
  obtain ⟨bound, rfl⟩ := List.getElem?_eq_some_iff.mp here
  have running : ∀ closed : run.hub.running = false, False := fun marked => by
    have done := before.all_done marked _ (List.getElem_mem bound)
    rw [step.ends.1] at done
    cases done
  refine ⟨?_, ?_, ?_, ?_, ?_, ?_, ?_, before.cancelled, ?_⟩
  · exact step.attached.trans before.attached
  · simp only [step.ends.2, before.ends, List.countP_set bound, step.ends.1]
    cases stage.isDone <;> simp
  · intro joined
    have done := before.joined joined _ (List.getElem_mem bound)
    rw [step.ends.1] at done
    cases done
  · intro held member stopped
    rw [step.attached]
    rcases List.mem_or_eq_of_mem_set member with old | rfl
    · exact before.stopped held old stopped
    · rcases step.stops stopped with already | gone
      · exact before.stopped _ (List.getElem_mem bound) already
      · exact Bool.eq_false_iff.mpr fun attached => gone (.inl attached)
  · exact fun marked => (running (step.running ▸ marked)).elim
  · intro closed attached
    exact step.running.trans (before.marked closed (step.attached ▸ attached))
  · exact fun drains => (running (before.drains drains)).elim
  · exact fun ended => (running (before.finished ended).1).elim

section supervisor

variable {inputs : Nat} {alive : Prop} {supervisor after : Supervisor} {hub rest : Hub α}
  {recorded : List (Nat × Error)}

theorem Supervisor.Step.joins
    (step : Supervisor.Step inputs alive supervisor hub recorded after rest) :
    supervisor.hasJoined = true ∨ hub.ends.length = inputs := by
  cases step with
  | join ended => exact .inr ended
  | report | reported | upgrade | gone | close | signal => exact .inl rfl

theorem Supervisor.Step.keeps_mark
    (step : Supervisor.Step inputs alive supervisor hub recorded after rest)
    (marked : hub.running = false) : rest.running = false := by
  cases step with
  | close => rfl
  | join | report | reported | upgrade | gone | signal => exact marked

theorem Supervisor.Step.closed
    (step : Supervisor.Step inputs alive supervisor hub recorded after rest)
    (before : hub.running = false → supervisor.hasClosed = true) (marked : rest.running = false) :
    after.hasClosed = true := by
  cases step with
  | gone | close | signal => rfl
  | join | report | reported | upgrade => exact before marked

theorem Supervisor.Step.marks
    (step : Supervisor.Step inputs alive supervisor hub recorded after rest)
    (closed : after.hasClosed = true) :
    supervisor.hasClosed = true ∨ ¬alive ∨ rest.running = false := by
  cases step with
  | join | report | reported | upgrade => cases closed
  | gone gone => exact .inr (.inl gone)
  | close => exact .inr (.inr rfl)
  | signal => exact .inl rfl

end supervisor

theorem Run.Closing.supervisor (before : run.Closing) (launched : run.Launched feeds)
    {recorded : List (Nat × Error)} {supervisor : Supervisor} {hub : Hub α}
    (step : Supervisor.Step feeds.length run.Alive run.supervisor run.hub recorded supervisor
      hub) :
    Run.Closing { run with supervisor, hub, recorded := run.recorded ++ recorded } := by
  obtain ⟨queue, attached, ends⟩ := step.frame
  refine ⟨?_, ?_, ?_, ?_, step.closed before.closed, ?_, ?_, before.cancelled, ?_⟩
  · exact attached.trans before.attached
  · exact (congrArg List.length ends).trans before.ends
  · intro _
    rcases step.joins with joined | all
    · exact before.joined joined
    · have count := congrArg List.length (launched.all step.born.1)
      rw [List.length_map] at count
      rw [before.ends, ← count] at all
      exact List.countP_eq_length.mp all
  · intro input member stopped
    exact attached.trans (before.stopped input member stopped)
  · intro closed there
    have there : run.hub.attached = true := attached.symm.trans there
    rcases step.marks closed with already | gone | marked
    · exact step.keeps_mark (before.marked already there)
    · exact absurd (.inl there) gone
    · exact marked
  · exact fun drains => step.keeps_mark (before.drains drains)
  · intro ended
    obtain ⟨marked, empty, stopped⟩ := before.finished ended
    exact ⟨step.keeps_mark marked, (congrArg Queue.toList queue).trans empty, stopped⟩

section consumer

variable {flag : Flag} {consumer after : Consumer} {hub rest : Hub α} {yielded : List α}

theorem Consumer.Step.drains (step : Consumer.Step flag consumer hub yielded after rest)
    (drains : after = .drains) : hub.running = false := by
  cases step with
  | closed closed => exact closed
  | cancelled | look | item | none | runs | last | finish | heard | listen | stop | wait | skip
  | subscribe | heardLate | waitLate | answer | obey | again => cases drains

theorem Consumer.Step.cancelled_end (step : Consumer.Step flag consumer hub yielded after rest)
    {count : Nat} (ended : after = .ended (.cancelled count)) : flag.raised = true := by
  cases step with
  | cancelled raised => exact raised
  | look | item | none | runs | closed | last | finish | heard | listen | stop | wait | skip
  | subscribe | heardLate | waitLate | answer | obey | again => cases ended

theorem Consumer.Step.finished_end (step : Consumer.Step flag consumer hub yielded after rest)
    (ended : after = .ended .finished) :
    consumer = .drains ∧ rest.queue.toList = [] ∧ yielded = [] := by
  cases step with
  | @finish _ rest popped =>
    have empty : rest.queue.toList = [] := Hub.eq_nil_of_pop popped
    exact ⟨rfl, empty, rfl⟩
  | cancelled | look | item | none | runs | closed | last | heard | listen | stop | wait | skip
  | subscribe | heardLate | waitLate | answer | obey | again => cases ended

end consumer

theorem Run.Closing.consumer (before : run.Closing) {yielded : List α} {consumer : Consumer}
    {hub : Hub α} (step : Consumer.Step run.flag run.consumer run.hub yielded consumer hub) :
    Run.Closing { run with consumer, hub, yielded := run.yielded ++ yielded } := by
  obtain ⟨running, ends⟩ := step.frame
  obtain ⟨present, left⟩ := step.attached
  have there : run.hub.attached = true := by rw [before.attached, present]; rfl
  refine ⟨?_, ?_, before.joined, ?_, ?_, ?_, ?_, fun _ => step.cancelled_end, ?_⟩
  · rw [left, there]; rfl
  · exact (congrArg List.length ends).trans before.ends
  · intro input member stopped
    exact absurd (before.stopped input member stopped) (by simp [there])
  · exact fun marked => before.closed (running ▸ marked)
  · exact fun closed _ => running.trans (before.marked closed there)
  · exact fun drains => running.trans (step.drains drains)
  · intro ended
    obtain ⟨drains, empty, -⟩ := step.finished_end ended
    refine ⟨running.trans (before.drains drains), empty, fun input member => ?_⟩
    refine Bool.eq_false_iff.mpr fun stopped => ?_
    exact absurd (before.stopped input member stopped) (by simp [there])

theorem Step.closing (step : Step feeds run next) (launched : run.Launched feeds)
    (before : run.Closing) : next.Closing := by
  cases step with
  | launch here => exact before.launch launched here _
  | begin here => exact before.begin launched here
  | input here step => exact before.input here step
  | supervisor step => exact before.supervisor launched step
  | consumer step => exact before.consumer step

theorem Run.MayDrop.present (may : run.MayDrop) : run.consumer.isGone = false := by
  unfold Run.MayDrop at may
  cases consumer : run.consumer <;> rw [consumer] at may <;> first | rfl | exact may.elim

theorem Outside.closing (event : Outside run next) (before : run.Closing) : next.Closing := by
  cases event with
  | cancel =>
    exact { before with cancelled := fun _ _ => rfl }
  | drop may =>
    exact { before with
      attached := rfl
      stopped := fun _ _ _ => rfl
      marked := nofun
      drains := nofun
      cancelled := nofun
      finished := nofun }

/-- What holds from the launch to the end. -/
theorem Reachable.lifecycle (reached : Reachable feeds run) :
    run.Launched feeds ∧ run.Closing := by
  induction reached with
  | start =>
    refine ⟨⟨⟨feeds, rfl⟩, fun born => absurd rfl born, fun _ => rfl, fun _ => .inl rfl, nofun⟩, ?_⟩
    exact ⟨rfl, rfl, nofun, nofun, nofun, nofun, nofun, nofun, nofun⟩
  | step _ step ih => exact ⟨step.launched ih.1, step.closing ih.1 ih.2⟩
  | outside _ event ih => exact ⟨event.launched ih.1, event.closing ih.2⟩

theorem Reachable.ends_le (reached : Reachable feeds run) :
    run.hub.ends.length ≤ feeds.length := by
  obtain ⟨launched, closing⟩ := reached.lifecycle
  obtain ⟨rest, part⟩ := launched.part
  calc
    run.hub.ends.length = run.inputs.countP (·.stage.isDone) := closing.ends
    _ ≤ run.inputs.length := List.countP_le_length
    _ ≤ feeds.length := by rw [part, List.length_append, List.length_map]; omega

end Deferred.Merge
