import Deferred.Proofs.Merge.Lifecycle

/-! A merged run loses, repeats and reorders nothing. What was pushed is what was yielded followed
by what is queued, and what an input has pushed is the beginning of what its feed has produced.
The consumer that ends without a cancellation has seen the mark of the supervisor, which is set
when all inputs are over: nothing can be pushed after it, and nothing is queued. -/

namespace Deferred.Merge

variable {σ α : Type} {feeds : List (Feed σ α)} {run next : Run σ α}

/-! ### The queue -/

def Run.Conserved (run : Run σ α) : Prop :=
  run.pushed.map Prod.snd = run.yielded ++ run.hub.queue.toList

theorem Step.conserved (step : Step feeds run next) (before : run.Conserved) :
    next.Conserved := by
  unfold Run.Conserved at *
  cases step with
  | launch | begin => exact before
  | input here step =>
    simp only [List.map_append, List.map_map, Function.comp_def, List.map_id', before, step.toList,
      List.append_assoc]
  | supervisor step => simp only [before, step.frame.1]
  | consumer step => simp only [before, step.toList, List.append_assoc]

theorem Outside.conserved (event : Outside run next) (before : run.Conserved) :
    next.Conserved := by
  cases event <;> exact before

/-! ### The inputs -/

/-- An input at this stage goes on with a run of the feed that has produced these items. -/
def Stage.Follows (feed : Feed σ α) (items : List α) : Stage σ α → Prop
  | pulls cursor => feed.Gives items cursor
  | holds _ rest => feed.Gives items (Flow.cursor rest)
  | pushes _ rest => feed.Gives items (Flow.cursor rest)
  | signals rest => feed.Gives items (Flow.cursor rest)
  | releases rest => feed.Gives items (Flow.cursor rest)
  | leaves .finished => feed.Finishes items
  | done .finished => feed.Finishes items
  | leaves (.panicked payload) => feed.Panics items payload
  | done (.panicked payload) => feed.Panics items payload
  | leaves .stopped => ∃ cursor, feed.Gives items cursor
  | done .stopped => ∃ cursor, feed.Gives items cursor

/-- All items produced have been sent, but for one that the input holds or was not rid of. -/
def Stage.Delivers (items sent : List α) : Stage σ α → Prop
  | holds value _ => items = sent ++ [value]
  | pushes value _ => items = sent ++ [value]
  | leaves .stopped => ∃ value, items = sent ++ [value]
  | done .stopped => ∃ value, items = sent ++ [value]
  | _ => items = sent

theorem Stage.Follows.gives {feed : Feed σ α} {items : List α} {stage : Stage σ α}
    (follows : stage.Follows feed items) : ∃ cursor, feed.Gives items cursor := by
  cases stage with
  | pulls | holds | pushes | signals | releases => exact ⟨_, follows⟩
  | leaves fate | done fate =>
    cases fate with
    | finished => obtain ⟨cursor, _, _, gives, _⟩ := follows; exact ⟨cursor, gives⟩
    | panicked => obtain ⟨cursor, _, _, _, gives, _⟩ := follows; exact ⟨cursor, gives⟩
    | stopped => exact follows

theorem Stage.Delivers.isPrefix {items sent : List α} {stage : Stage σ α}
    (delivers : stage.Delivers items sent) : sent <+: items := by
  cases stage with
  | pulls | signals | releases => exact delivers ▸ List.prefix_rfl
  | holds value | pushes value => exact ⟨[value], delivers.symm⟩
  | leaves fate | done fate =>
    cases fate with
    | finished | panicked => exact delivers ▸ List.prefix_rfl
    | stopped => obtain ⟨value, same⟩ := delivers; exact ⟨[value], same.symm⟩

theorem Stage.Step.follows {index : Nat} {alive : Prop} {stage next : Stage σ α}
    {hub after : Hub α} {produced pushed : List α}
    (step : Stage.Step index alive stage hub produced pushed next after) {feed : Feed σ α}
    {items : List α} (before : stage.Follows feed items) :
    next.Follows feed (items ++ produced) := by
  cases step with
  | @pull cursor _ state opens =>
    cases node : cursor.resume state with
    | item value rest release after => exact .item before opens node
    | ended after => rw [Items.given, List.append_nil]; exact ⟨_, _, _, before, opens, node⟩
    | panic payload release after =>
      rw [Items.given, List.append_nil]; exact ⟨_, _, _, _, before, opens, node⟩
    | waiting wait resume after =>
      rw [Items.given, List.append_nil]; exact .waiting before opens node
    | spawn child rest after => rw [Items.given, List.append_nil]; exact .spawn before opens node
  | refuse => rw [List.append_nil]; exact ⟨_, before⟩
  | @leave fate _ => rw [List.append_nil]; cases fate <;> exact before
  | upgrade | push | signal | release => rw [List.append_nil]; exact before

theorem Stage.Step.delivers {index : Nat} {alive : Prop} {stage next : Stage σ α}
    {hub after : Hub α} {produced pushed : List α}
    (step : Stage.Step index alive stage hub produced pushed next after) {items sent : List α}
    (before : stage.Delivers items sent) :
    next.Delivers (items ++ produced) (sent ++ pushed) := by
  cases step with
  | @pull cursor _ state opens =>
    obtain rfl : items = sent := before
    cases cursor.resume state <;> simp [Items.given, ofItems, Delivers]
  | refuse => simp only [List.append_nil]; exact ⟨_, before⟩
  | push => simp only [List.append_nil]; exact before
  | @leave fate _ => simp only [List.append_nil]; cases fate <;> exact before
  | upgrade | signal | release => simp only [List.append_nil]; exact before

structure Run.Orderly (run : Run σ α) : Prop where
  known : ∀ entry ∈ run.pushed, entry.1 < run.inputs.length
  inputs : ∀ index (input : Input σ α), run.inputs[index]? = some input →
    input.stage.Follows input.feed input.produced ∧
      input.stage.Delivers input.produced (run.sent index)

theorem Run.Orderly.launch (before : run.Orderly) (feed : Feed σ α) :
    Run.Orderly { run with
      inputs := run.inputs ++ [⟨feed, .pulls feed.flow.cursor, []⟩] } where
  known entry member := by
    have bound := before.known entry member
    rw [List.length_append]
    omega
  inputs index input found := by
    rcases getElem?_concat_eq_some found with old | ⟨rfl, rfl⟩
    · exact before.inputs index input old
    · have fresh : run.sent run.inputs.length = [] :=
        itemsOf_eq_nil fun entry member => Nat.ne_of_lt (before.known entry member)
      exact ⟨.start, fresh.symm⟩

theorem Run.Orderly.input (before : run.Orderly) {index : Nat} {input : Input σ α}
    {produced pushed : List α} {stage : Stage σ α} {hub : Hub α}
    (here : run.inputs[index]? = some input)
    (step : Stage.Step index run.Alive input.stage run.hub produced pushed stage hub) :
    Run.Orderly { run with
      inputs := run.inputs.set index { input with stage, produced := input.produced ++ produced }
      hub
      pushed := run.pushed ++ pushed.map (index, ·) } where
  known entry member := by
    rw [List.length_set]
    rcases List.mem_append.mp member with old | new
    · exact before.known entry old
    · obtain ⟨value, -, rfl⟩ := List.mem_map.mp new
      exact (List.getElem?_eq_some_iff.mp here).1
  inputs other held found := by
    obtain ⟨follows, delivers⟩ := before.inputs index input here
    simp only [Run.sent, itemsOf_append]
    rcases getElem?_set_eq_some found with ⟨rfl, rfl⟩ | ⟨apart, found⟩
    · rw [itemsOf_tag_self]
      exact ⟨step.follows follows, step.delivers delivers⟩
    · rw [itemsOf_tag_ne pushed apart, List.append_nil]
      exact before.inputs other held found

theorem Step.orderly (step : Step feeds run next) (before : run.Orderly) : next.Orderly := by
  cases step with
  | launch => exact before.launch _
  | begin | supervisor | consumer => exact ⟨before.known, before.inputs⟩
  | input here step => exact before.input here step

theorem Outside.orderly (event : Outside run next) (before : run.Orderly) : next.Orderly := by
  cases event <;> exact ⟨before.known, before.inputs⟩

theorem Reachable.orderly (reached : Reachable feeds run) : run.Conserved ∧ run.Orderly := by
  induction reached with
  | start => exact ⟨rfl, nofun, nofun⟩
  | step _ step ih => exact ⟨step.conserved ih.1, step.orderly ih.2⟩
  | outside _ event ih => exact ⟨event.conserved ih.1, event.orderly ih.2⟩

/-! ### All items -/

/-- The task is over, and its feed had ended or panicked before. -/
def Input.Completed (input : Input σ α) : Prop :=
  (input.stage = .done .finished ∧ input.feed.Finishes input.produced) ∨
    ∃ payload, input.stage = .done (.panicked payload) ∧
      input.feed.Panics input.produced payload

theorem Input.completed_of_done {input : Input σ α} (done : input.stage.isDone = true)
    (taken : input.stage.hasStopped = false)
    (follows : input.stage.Follows input.feed input.produced) : input.Completed := by
  obtain ⟨feed, stage, produced⟩ := input
  cases stage with
  | done fate =>
    cases fate with
    | finished => exact .inl ⟨rfl, follows⟩
    | panicked payload => exact .inr ⟨payload, rfl, follows⟩
    | stopped => cases taken
  | pulls | holds | pushes | signals | releases | leaves => cases done

theorem Input.Completed.delivers {input : Input σ α} {sent : List α} (completed : input.Completed)
    (delivers : input.stage.Delivers input.produced sent) : input.produced = sent := by
  rcases completed with ⟨stage, -⟩ | ⟨payload, stage, -⟩ <;> rw [stage] at delivers <;>
    exact delivers

theorem Run.Launched.feed_eq (launched : run.Launched feeds) {index : Nat} {input : Input σ α}
    (here : run.inputs[index]? = some input) : feeds[index]? = some input.feed := by
  obtain ⟨rest, rfl⟩ := launched.part
  have bound := (List.getElem?_eq_some_iff.mp here).1
  rw [List.getElem?_append_left (by rwa [List.length_map]), List.getElem?_map, here]
  rfl

/-- At the end of a run that was not cancelled everything that was produced has been yielded. -/
theorem Reachable.completed (reached : Reachable feeds run)
    (finished : run.consumer = .ended .finished) :
    run.inputs.map Input.feed = feeds ∧ (∀ input ∈ run.inputs, input.Completed) ∧
      Interleaves (run.inputs.map Input.produced) run.yielded := by
  obtain ⟨launched, closing⟩ := reached.lifecycle
  obtain ⟨conserved, orderly⟩ := reached.orderly
  obtain ⟨marked, empty, taken⟩ := closing.finished finished
  have completed : ∀ input ∈ run.inputs, input.Completed := by
    intro input member
    obtain ⟨index, here⟩ := List.mem_iff_getElem?.mp member
    exact Input.completed_of_done (closing.all_done marked input member) (taken input member)
      (orderly.inputs index input here).1
  have born : run.supervisor ≠ .unborn := by
    intro unborn
    rcases launched.born unborn with launches | dropped
    · rw [finished] at launches; cases launches
    · rw [finished] at dropped; cases dropped
  refine ⟨launched.all born, completed, ?_⟩
  have all : run.pushed.map Prod.snd = run.yielded := by
    rw [conserved, empty, List.append_nil]
  rw [← all]
  apply interleaves_of_tagged run.pushed (by simpa using orderly.known)
  intro index part found
  rw [List.getElem?_map, Option.map_eq_some_iff] at found
  obtain ⟨input, here, rfl⟩ := found
  have member := List.mem_of_getElem? here
  exact ((completed input member).delivers (orderly.inputs index input here).2).symm

/-- A run that has lost, repeated and reordered nothing. -/
structure Run.Faithful (feeds : List (Feed σ α)) (run : Run σ α) : Prop where
  /-- What was pushed is what was yielded followed by what is queued. -/
  conserved : run.pushed.map Prod.snd = run.yielded ++ run.hub.queue.toList
  known : ∀ entry ∈ run.pushed, entry.1 < run.inputs.length
  /-- Each input has pushed the beginning of what its feed has produced. -/
  inputs : ∀ (index : Nat) (input : Input σ α), run.inputs[index]? = some input →
    feeds[index]? = some input.feed ∧ (∃ cursor, input.feed.Gives input.produced cursor) ∧
      itemsOf run.pushed index <+: input.produced
  uncancelled : ∀ close, run.consumer = .ended close → run.flag.raised = false → close = .finished
  /-- A consumer that ends without a cancellation has yielded all items of all inputs. -/
  complete : run.consumer = .ended .finished →
    run.inputs.map Input.feed = feeds ∧ (∀ input ∈ run.inputs, input.Completed) ∧
      Interleaves (run.inputs.map Input.produced) run.yielded

/-- Whatever the order of the steps. -/
theorem Reachable.faithful (reached : Reachable feeds run) : run.Faithful feeds where
  conserved := reached.orderly.1
  known := reached.orderly.2.known
  inputs index input here := by
    obtain ⟨follows, delivers⟩ := reached.orderly.2.inputs index input here
    exact ⟨reached.lifecycle.1.feed_eq here, follows.gives, delivers.isPrefix⟩
  uncancelled close ended lowered := by
    cases close with
    | finished => rfl
    | cancelled count =>
      rw [reached.lifecycle.2.cancelled count ended] at lowered
      cases lowered
  complete := reached.completed

end Deferred.Merge
