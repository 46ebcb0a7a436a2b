import Deferred.Proofs.Merge.Conservation
import Deferred.Proofs.Merge.ConsumerTurns
import Deferred.Proofs.Merge.TaskTurns

/-! A program that runs a merged feed. It polls the consumer and the tasks that the consumer has
spawned in any order, and may drop the consumer. In between comes other code, which leaves the hub
alone and may raise the flag. Whatever the order of its turns, the program does what some merged run
does. -/

namespace Deferred.Merge

variable {σ α : Type}

/-! ### Steps of one part as steps of the run -/

section lift

variable {feeds : List (Feed σ α)} {run : Run σ α}

/-- Nobody but this input may keep the hub. -/
structure Run.QuietBeside (index : Nat) (run : Run σ α) : Prop where
  inputs : ∀ (other : Nat) (input : Input σ α), other ≠ index → run.inputs[other]? = some input →
    input.stage.keepsHub = false
  supervisor : run.supervisor.keepsHub = false

theorem Run.QuietBeside.set {index : Nat} (quiet : run.QuietBeside index) (input : Input σ α)
    (hub : Hub α) (flag : Flag) (pushed : List (Nat × α)) :
    Run.QuietBeside index { run with inputs := run.inputs.set index input, hub, flag, pushed } where
  inputs other found apart there := by
    rcases getElem?_set_eq_some there with ⟨same, -⟩ | ⟨-, there⟩
    · exact absurd same.symm apart
    · exact quiet.inputs other found apart there
  supervisor := quiet.supervisor

theorem Run.QuietBeside.attached {index : Nat} (quiet : run.QuietBeside index)
    {input : Input σ α} (here : run.inputs[index]? = some input)
    (own : input.stage.keepsHub = false) (alive : run.Alive) : run.hub.attached = true := by
  rcases alive with attached | ⟨other, member, keeps⟩ | keeps
  · exact attached
  · obtain ⟨place, there⟩ := List.mem_iff_getElem?.mp member
    by_cases same : place = index
    · subst same
      obtain rfl := Option.some.inj (here.symm.trans there)
      rw [own] at keeps
      cases keeps
    · rw [quiet.inputs place other same there] at keeps
      cases keeps
  · rw [quiet.supervisor] at keeps
    cases keeps

/-- While the others are quiet, the hub is there for an input as long as the consumer is. -/
theorem Run.QuietBeside.step {index : Nat} (quiet : run.QuietBeside index) {input : Input σ α}
    (here : run.inputs[index]? = some input) {stage : Stage σ α} {hub : Hub α}
    {produced pushed : List α}
    (step : Stage.Step index (run.hub.attached = true) input.stage run.hub produced pushed stage
      hub) : Stage.Step index run.Alive input.stage run.hub produced pushed stage hub := by
  obtain ⟨feed, before, made⟩ := input
  cases step with
  | upgrade there => exact .upgrade (.inl there)
  | refuse gone => exact .refuse fun alive => gone (quiet.attached here rfl alive)
  | pull opens => exact .pull opens
  | push => exact .push
  | signal => exact .signal
  | release => exact .release
  | leave => exact .leave

theorem Stage.Steps.reachable {index : Nat} {stage last : Stage σ α} {hub after : Hub α}
    {flag mark : Flag} {made sent : List α}
    (steps : Stage.Steps index stage hub flag made sent last after mark) :
    ∀ (run : Run σ α) (feed : Feed σ α) (produced : List α), Reachable feeds run →
      run.inputs[index]? = some ⟨feed, stage, produced⟩ → run.hub = hub → run.flag = flag →
      run.QuietBeside index →
      Reachable feeds { run with
        inputs := run.inputs.set index ⟨feed, last, produced ++ made⟩
        hub := after
        flag := mark
        pushed := run.pushed ++ sent.map (index, ·) } := by
  induction steps with
  | refl =>
    intro run feed produced reached here hub flag quiet
    subst hub flag
    obtain ⟨bound, same⟩ := List.getElem?_eq_some_iff.mp here
    rw [List.append_nil, ← same, List.set_getElem_self, List.map_nil, List.append_nil]
    exact reached
  | @step stage hub flag made sent next rest more others last after mark step _ ih =>
    intro run feed produced reached here hub flag quiet
    subst hub flag
    have bound := (List.getElem?_eq_some_iff.mp here).1
    have later := ih _ feed (produced ++ made) (reached.step (.input here (quiet.step here step)))
      (List.getElem?_set_self bound) rfl rfl (quiet.set _ _ _ _)
    dsimp only at later
    rw [List.set_set, List.append_assoc, List.append_assoc, ← List.map_append] at later
    exact later
  | raise _ ih =>
    intro run feed produced reached here hub flag quiet
    subst hub flag
    exact ih { run with flag := run.flag.raise } feed produced (reached.outside .cancel) here rfl
      rfl
      ⟨quiet.inputs, quiet.supervisor⟩

/-- While all inputs are quiet, the hub is there for the supervisor as long as the consumer is. -/
theorem Run.supervisor_step (quiet : ∀ input ∈ run.inputs, input.stage.keepsHub = false)
    {supervisor next : Supervisor} (here : run.supervisor = supervisor) {inputs : Nat}
    {hub : Hub α} {recorded : List (Nat × Error)}
    (step : Supervisor.Step inputs (run.hub.attached = true) supervisor run.hub recorded next
      hub) : Supervisor.Step inputs run.Alive supervisor run.hub recorded next hub := by
  cases step with
  | upgrade there => exact .upgrade (.inl there)
  | gone gone =>
    refine .gone fun alive => ?_
    rcases alive with attached | ⟨input, member, keeps⟩ | keeps
    · exact gone attached
    · rw [quiet input member] at keeps
      cases keeps
    · rw [here] at keeps
      cases keeps
  | join ended => exact .join ended
  | report left => exact .report left
  | reported => exact .reported
  | close => exact .close
  | signal => exact .signal

theorem Supervisor.Steps.reachable {supervisor last : Supervisor} {hub after : Hub α}
    {recorded : List (Nat × Error)}
    (steps : Supervisor.Steps feeds.length supervisor hub recorded last after) :
    ∀ run : Run σ α, Reachable feeds run → run.supervisor = supervisor → run.hub = hub →
      (∀ input ∈ run.inputs, input.stage.keepsHub = false) →
      Reachable feeds { run with
        supervisor := last
        hub := after
        recorded := run.recorded ++ recorded } := by
  induction steps with
  | refl =>
    intro run reached stands hub quiet
    subst stands hub
    rw [List.append_nil]
    exact reached
  | @step supervisor hub recorded next rest more last after step _ ih =>
    intro run reached stands hub quiet
    subst stands hub
    have lifted := Run.supervisor_step quiet rfl step
    have later := ih _ (reached.step (.supervisor lifted)) rfl rfl quiet
    rw [List.append_assoc] at later
    exact later

theorem Consumer.Steps.reachable {flag : Flag} {consumer last : Consumer} {hub after : Hub α}
    {yielded : List α} (steps : Consumer.Steps flag consumer hub yielded last after) :
    ∀ run : Run σ α, Reachable feeds run → run.consumer = consumer → run.hub = hub →
      run.flag = flag → Reachable feeds { run with
        consumer := last
        hub := after
        yielded := run.yielded ++ yielded } := by
  induction steps with
  | refl =>
    intro run reached stands hub flag
    subst stands hub flag
    rw [List.append_nil]
    exact reached
  | step step _ ih =>
    intro run reached stands hub flag
    subst stands hub flag
    have later := ih _ (reached.step (.consumer step)) rfl rfl rfl
    rw [List.append_assoc] at later
    exact later

/-- An input of which nothing has been pulled. -/
def Input.fresh (feed : Feed σ α) : Input σ α :=
  ⟨feed, .pulls feed.flow.cursor, []⟩

theorem map_feed_fresh (feeds : List (Feed σ α)) :
    (feeds.map Input.fresh).map Input.feed = feeds := by
  rw [List.map_map]
  exact List.map_id feeds

/-- The first poll of the consumer launches all inputs. -/
theorem Reachable.launch_all (reached : Reachable feeds run) (here : run.consumer = .launches)
    (none : run.inputs = []) : Reachable feeds { run with inputs := feeds.map Input.fresh } := by
  have launches : ∀ rest begun : List (Feed σ α), feeds = begun ++ rest →
      Reachable feeds { run with inputs := begun.map Input.fresh } →
      Reachable feeds { run with inputs := feeds.map Input.fresh } := by
    intro rest
    induction rest with
    | nil =>
      intro begun parts reached
      rw [List.append_nil] at parts
      rw [← parts] at reached
      exact reached
    | cons feed rest ih =>
      intro begun parts reached
      have left : feeds = (begun.map Input.fresh).map Input.feed ++ feed :: rest := by
        rw [map_feed_fresh]
        exact parts
      have launched := reached.step (.launch here left)
      apply ih (begun ++ [feed]) (by rw [parts, List.append_assoc]; rfl)
      rw [List.map_append]
      exact launched
  apply launches feeds [] rfl
  rw [List.map_nil, ← none]
  exact reached

theorem Reachable.raises (reached : Reachable feeds run) {mark : Flag}
    (becomes : run.flag.Becomes mark) : Reachable feeds { run with flag := mark } := by
  induction becomes with
  | refl => exact reached
  | tail _ raised ih =>
    subst raised
    exact ih.outside .cancel

end lift

/-! ### Programs -/

/-- A program that has begun to run a merged feed: what is left of the consumer and of the tasks
that it has spawned, and the items that it has yielded. -/
structure Program (σ α : Type) where
  state : σ
  consumer : Option (Cursor σ α)
  tasks : List (Option (Job σ))
  yielded : List α

namespace Program

/-- Before its first poll. -/
def start (flow : Flow σ α) (state : σ) : Program σ α :=
  ⟨state, some flow.cursor, [], []⟩

/-- One turn: the consumer or a task is polled, the consumer is dropped at a point from which it may
go on, or other code has its turn, tasks that an input has spawned among it. -/
inductive Turn (place : Place σ (Hub α)) (cancellation : Cancellation σ)
    (program : Program σ α) : Program σ α → Prop where
  | consumer {cursor} (here : program.consumer = some cursor)
      (opens : cursor.wait.opens program.state = true) :
      Turn place cancellation program {
        state := (cursor.resume program.state).state
        consumer := (cursor.resume program.state).cursor
        tasks := program.tasks ++
          (cursor.resume program.state).children.map fun child => some ⟨.passed, child⟩
        yielded := program.yielded ++ (cursor.resume program.state).yields }
  | task {index job} (here : program.tasks[index]? = some (some job))
      (opens : job.wait.opens program.state = true) :
      Turn place cancellation program { program with
        state := (job.resume program.state).state
        tasks := program.tasks.set index (job.resume program.state).job }
  | drop {cursor} (here : program.consumer = some cursor)
      (may : ∃ state, cursor.wait.opens state = true) :
      Turn place cancellation program { program with
        state := cursor.wait.release program.state
        consumer := none }
  | other {state} (spares : Spares place cancellation program.state state) :
      Turn place cancellation program { program with state }

abbrev Turns (place : Place σ (Hub α)) (cancellation : Cancellation σ) :
    Program σ α → Program σ α → Prop :=
  Relation.ReflTransGen (Turn place cancellation)

end Program

section programs

variable [Host σ] (place : Place σ (Hub α)) (cancellation : Cancellation σ)
  (feeds : List (Feed σ α))

/-- The tasks are what is left of the inputs in their order and then of the supervisor. -/
structure Run.Backed (tasks : List (Option (Job σ))) (run : Run σ α) : Prop where
  begun : tasks = [] ∧ run.inputs = [] ∨
    tasks.length = feeds.length + 1 ∧ run.inputs.length = feeds.length
  inputs : ∀ (index : Nat) (input : Input σ α), run.inputs[index]? = some input →
    ∃ job, tasks[index]? = some job ∧ Stage.Shows place cancellation index input.stage job
  supervisor : Supervisor.Shows place feeds.length run.supervisor run.hub tasks[feeds.length]?

/-- The program stands where the merged run stands. -/
structure Program.Shows (program : Program σ α) (run : Run σ α) : Prop where
  hub : run.hub = place.get program.state
  flag : run.flag = cancellation.flag.get program.state
  yielded : run.yielded = program.yielded
  consumer : Consumer.Shows place cancellation feeds run.consumer run.hub run.flag program.consumer
  tasks : run.Backed place cancellation feeds program.tasks

end programs

section turns

variable [Host σ] {place : Place σ (Hub α)} {cancellation : Cancellation σ}
  {feeds : List (Feed σ α)} {run : Run σ α} {tasks : List (Option (Job σ))}

theorem Run.Backed.quiet (backed : run.Backed place cancellation feeds tasks) :
    (∀ input ∈ run.inputs, input.stage.keepsHub = false) ∧ run.supervisor.keepsHub = false := by
  constructor
  · intro input member
    obtain ⟨index, here⟩ := List.mem_iff_getElem?.mp member
    obtain ⟨job, -, shows⟩ := backed.inputs index input here
    generalize input.stage = stage at shows
    cases shows <;> rfl
  · have shows := backed.supervisor
    generalize run.supervisor = supervisor, tasks[feeds.length]? = job at shows
    cases shows <;> rfl

/-- The consumer goes on in a turn. -/
theorem Consumer.Comes.exists_run {state : σ} {items : Items σ α} {yielded : List α}
    (reached : Reachable feeds run) (hub : run.hub = place.get state)
    (flag : run.flag = cancellation.flag.get state) (same : run.yielded = yielded)
    (backed : run.Backed place cancellation feeds tasks)
    (comes : Comes place cancellation feeds run.consumer state items) :
    ∃ after, Reachable feeds after ∧ Program.Shows place cancellation feeds
      ⟨items.state, items.cursor, tasks, yielded ++ items.yields⟩ after := by
  obtain ⟨consumer, steps, mark, -, shows⟩ := comes
  rw [← hub, ← flag] at steps
  have supervisor := backed.supervisor.mono (Nat.le_of_eq (congrArg List.length steps.ends.symm))
  rw [mark, ← flag] at shows
  exact ⟨_, steps.reachable run reached rfl rfl rfl, rfl, flag.trans mark.symm,
    congrArg (· ++ items.yields) same, shows, backed.begun, backed.inputs, supervisor⟩

/-- A turn of a consumer that has begun. -/
theorem Consumer.Shows.comes (apart : Apart place cancellation) {consumer : Consumer} {state : σ}
    {cursor : Cursor σ α} (begun : consumer ≠ .launches)
    (noted : ∀ seen, consumer.version? = some seen → (cancellation.flag.get state).Noted seen)
    (shows : Shows place cancellation feeds consumer (place.get state)
      (cancellation.flag.get state) (some cursor))
    (opens : cursor.wait.opens state = true) :
    Comes place cancellation feeds consumer state (cursor.resume state) := by
  have looks := fun left => comes_consume apart feeds left
  cases shows with
  | launches => exact absurd rfl begun
  | rests => exact (looks _ state).head rfl .again
  | selects => exact comes_await apart (looks _)
  | @waits _ _ seen left =>
    have known : (place.get state).signal.isCalled = true ∨
        (cancellation.flag.get state).raised = true := by
      rcases Bool.or_eq_true_iff.mp opens with called | calls
      · exact .inl called
      · exact .inr (Bool.and_eq_true_iff.mp calls).2
    dsimp only [afford]
    split
    · exact comes_answer apart (looks left) (noted seen rfl) known
    · exact ⟨_, .refl, rfl, rfl, .called known⟩
  | called called => exact comes_answer apart (looks _) (noted _ rfl) called
  | spent => cases opens

variable {program : Program σ α}

theorem Run.Backed.begun_of_task (backed : run.Backed place cancellation feeds tasks) {index : Nat}
    {job : Option (Job σ)} (here : tasks[index]? = some job) :
    tasks.length = feeds.length + 1 ∧ run.inputs.length = feeds.length := by
  rcases backed.begun with ⟨none, -⟩ | begun
  · rw [none] at here
    cases here
  · exact begun

theorem Program.Shows.supervisor_turn (apart : Apart place cancellation)
    (shows : program.Shows place cancellation feeds run) (reached : Reachable feeds run)
    {job : Job σ} (here : program.tasks[feeds.length]? = some (some job))
    (opens : job.wait.opens program.state = true) :
    ∃ after, Reachable feeds after ∧ Program.Shows place cancellation feeds
      { program with
        state := (job.resume program.state).state
        tasks := program.tasks.set feeds.length (job.resume program.state).job } after := by
  obtain ⟨hub, flag, yielded, consumer, backed⟩ := shows
  obtain ⟨count, inputs⟩ := backed.begun_of_task here
  have supervisor := backed.supervisor
  have all := reached.ends_le
  rw [here, hub] at supervisor
  rw [hub] at all
  obtain ⟨awaits, last, recorded, steps, mark, left⟩ := supervisor.comes apart opens all
  rw [← hub] at steps
  refine ⟨_, steps.reachable run reached awaits rfl backed.quiet.1, rfl, flag.trans mark.symm,
    yielded, consumer.mono steps.called id, .inr ⟨List.length_set.trans count, inputs⟩, ?_, ?_⟩
  · intro index input there
    have bound : index < run.inputs.length := (List.getElem?_eq_some_iff.mp there).1
    dsimp only
    rw [List.getElem?_set_ne (by omega)]
    exact backed.inputs index input there
  · dsimp only
    rw [List.getElem?_set_self (List.getElem?_eq_some_iff.mp here).1]
    exact left

theorem Program.Shows.input_turn (apart : Apart place cancellation)
    (shows : program.Shows place cancellation feeds run) (reached : Reachable feeds run)
    {index : Nat} {input : Input σ α} (found : run.inputs[index]? = some input) {job : Job σ}
    (here : program.tasks[index]? = some (some job))
    (opens : job.wait.opens program.state = true) :
    ∃ after, Reachable feeds after ∧ Program.Shows place cancellation feeds
      { program with
        state := (job.resume program.state).state
        tasks := program.tasks.set index (job.resume program.state).job } after := by
  obtain ⟨hub, flag, yielded, consumer, backed⟩ := shows
  obtain ⟨count, inputs⟩ := backed.begun_of_task here
  have bound := (List.getElem?_eq_some_iff.mp found).1
  obtain ⟨feed, stage, produced⟩ := input
  obtain ⟨other, there, stands⟩ := backed.inputs index _ found
  obtain rfl := Option.some.inj (there.symm.trans here)
  cases stands with
  | @pulls cursor spares =>
    obtain ⟨last, made, sent, steps, left⟩ :=
      Stage.exists_steps apart index (spares program.state) cursor opens rfl
    rw [← hub, ← flag] at steps
    obtain ⟨ends, called, raised⟩ := steps.stands
    refine ⟨_, steps.reachable run feed produced reached found rfl rfl ?_, rfl, rfl, yielded,
      consumer.mono called raised, .inr ⟨List.length_set.trans count, ?_⟩, ?_, ?_⟩
    · exact ⟨fun _ input _ there => backed.quiet.1 input (List.mem_of_getElem? there),
        backed.quiet.2⟩
    · exact List.length_set.trans inputs
    · intro other input there
      dsimp only at there ⊢
      rcases getElem?_set_eq_some there with ⟨rfl, rfl⟩ | ⟨apart, there⟩
      · exact ⟨_, List.getElem?_set_self (List.getElem?_eq_some_iff.mp here).1, left⟩
      · rw [List.getElem?_set_ne apart]
        exact backed.inputs other input there
    · dsimp only
      rw [List.getElem?_set_ne (by omega)]
      exact backed.supervisor.mono ends

/-- The tasks that the first poll of the consumer spawns. -/
def spawned (place : Place σ (Hub α)) (feeds : List (Feed σ α)) : List (σ → Task σ) :=
  (feeds.zipIdx.map fun (feed, index) => input place index feed) ++ [supervisor place feeds.length]

theorem Run.Backed.launched (place : Place σ (Hub α)) (cancellation : Cancellation σ)
    (spares : ∀ feed ∈ feeds, ∀ state, ItemsSpare place cancellation state (feed.flow state))
    (inputs : run.inputs = feeds.map Input.fresh) (awaits : run.supervisor = .awaits) :
    run.Backed place cancellation feeds
      ((spawned place feeds).map fun child => some ⟨.passed, child⟩) where
  begun := .inr ⟨by simp [spawned], by simp [inputs]⟩
  inputs index input found := by
    rw [inputs, List.getElem?_map, Option.map_eq_some_iff] at found
    obtain ⟨feed, found, rfl⟩ := found
    have bound := (List.getElem?_eq_some_iff.mp found).1
    refine ⟨some ⟨.passed, Merge.input place index feed⟩, ?_, ?_⟩
    · rw [spawned, List.map_append, List.getElem?_append_left (by simpa using bound)]
      simp [List.getElem?_zipIdx, found]
    · rw [input_eq]
      exact .pulls (spares feed (List.mem_of_getElem? found))
  supervisor := by
    rw [awaits, spawned, List.map_append, List.getElem?_append_right (by simp)]
    simpa using Supervisor.Shows.begins

/-- The first poll of the consumer. -/
theorem Program.Shows.launch_turn (apart : Apart place cancellation)
    (spares : ∀ feed ∈ feeds, ∀ state, ItemsSpare place cancellation state (feed.flow state))
    (shows : program.Shows place cancellation feeds run) (reached : Reachable feeds run)
    (launches : run.consumer = .launches) {items : Items σ α}
    (polled : flow place feeds cancellation program.state = items) :
    ∃ after, Reachable feeds after ∧ Program.Shows place cancellation feeds
      ⟨items.state, items.cursor,
        program.tasks ++ items.children.map fun child => some ⟨.passed, child⟩,
        program.yielded ++ items.yields⟩ after := by
  obtain ⟨hub, flag, yielded, -, backed⟩ := shows
  have empty : program.tasks = [] ∧ run.inputs = [] := by
    have unborn := backed.supervisor
    rw [reached.lifecycle.1.unborn launches] at unborn
    rcases backed.begun with none | ⟨all, -⟩
    · exact none
    · rw [List.getElem?_eq_getElem (by omega)] at unborn
      cases unborn
  have begun := (reached.launch_all launches empty.2).step (.begin launches (map_feed_fresh feeds))
  have comes := Consumer.comes_consume apart feeds looks
    (Host.trace (.mergeStarted feeds.length) program.state)
  obtain ⟨after, reached, shows⟩ := comes.exists_run begun (hub.trans (apart.hub_trace _ _).symm)
    (flag.trans (apart.flag_trace _ _).symm) yielded (.launched place cancellation spares rfl rfl)
  obtain ⟨cursor, state, yields, children⟩ := Flow.spawning_apply (spawned place feeds)
    (consume place cancellation looks) (Host.trace (.mergeStarted feeds.length) program.state)
  have spawns : flow place feeds cancellation program.state =
      Flow.spawning (spawned place feeds) (consume place cancellation looks)
        (Host.trace (.mergeStarted feeds.length) program.state) := rfl
  refine ⟨after, reached, ?_⟩
  rw [← polled, spawns, empty.1, List.nil_append, cursor, state, yields, children, comes.children,
    List.append_nil]
  exact shows

theorem Program.Shows.consumer_turn (apart : Apart place cancellation)
    (spares : ∀ feed ∈ feeds, ∀ state, ItemsSpare place cancellation state (feed.flow state))
    (shows : program.Shows place cancellation feeds run) (reached : Reachable feeds run)
    {cursor : Cursor σ α} (here : program.consumer = some cursor)
    (opens : cursor.wait.opens program.state = true) :
    ∃ after, Reachable feeds after ∧ Program.Shows place cancellation feeds
      { state := (cursor.resume program.state).state
        consumer := (cursor.resume program.state).cursor
        tasks := program.tasks ++
          (cursor.resume program.state).children.map fun child => some ⟨.passed, child⟩
        yielded := program.yielded ++ (cursor.resume program.state).yields } after := by
  by_cases launches : run.consumer = .launches
  · have consumer := shows.consumer
    rw [launches, here] at consumer
    cases consumer with
    | launches => exact shows.launch_turn apart spares reached launches rfl
  · obtain ⟨hub, flag, yielded, consumer, backed⟩ := shows
    rw [here, hub, flag] at consumer
    have noted := reached.attentive.noted
    rw [flag] at noted
    have comes := consumer.comes apart launches noted opens
    obtain ⟨after, reached, shows⟩ := comes.exists_run reached hub flag yielded backed
    refine ⟨after, reached, ?_⟩
    rw [comes.children, List.map_nil, List.append_nil]
    exact shows

theorem Program.Shows.drop_turn (apart : Apart place cancellation)
    (shows : program.Shows place cancellation feeds run) (reached : Reachable feeds run)
    {cursor : Cursor σ α} (here : program.consumer = some cursor)
    (may : ∃ state, cursor.wait.opens state = true) :
    ∃ after, Reachable feeds after ∧ Program.Shows place cancellation feeds
      { program with state := cursor.wait.release program.state, consumer := none } after := by
  obtain ⟨hub, flag, yielded, consumer, backed⟩ := shows
  have dropped : run.MayDrop → cursor.wait.release program.state = detach place program.state →
      ∃ after, Reachable feeds after ∧ Program.Shows place cancellation feeds
        { program with state := cursor.wait.release program.state, consumer := none } after := by
    intro may release
    have detached := apart.modify Hub.detach program.state
    rw [release]
    exact ⟨_, reached.outside (.drop may), (congrArg Hub.detach hub).trans detached.1.symm,
      flag.trans detached.2.symm, yielded, .gone rfl, backed.begun, backed.inputs,
      backed.supervisor.mono (Nat.le_refl _)⟩
  rw [here] at consumer
  generalize stands : run.consumer = stage at consumer
  cases consumer with
  | launches =>
    refine ⟨run, reached, hub, flag, yielded, ?_, backed⟩
    rw [stands]
    exact .unpolled
  | rests | selects | waits | called =>
    refine dropped ?_ rfl
    unfold Run.MayDrop
    rw [stands]
    trivial
  | spent =>
    obtain ⟨state, opens⟩ := may
    cases opens

/-- Each turn of the program is a sequence of steps of the merged run. -/
theorem Program.Shows.turn (apart : Apart place cancellation)
    (spares : ∀ feed ∈ feeds, ∀ state, ItemsSpare place cancellation state (feed.flow state))
    (shows : program.Shows place cancellation feeds run) (reached : Reachable feeds run)
    {next : Program σ α} (turn : Turn place cancellation program next) :
    ∃ after, Reachable feeds after ∧ next.Shows place cancellation feeds after := by
  cases turn with
  | consumer here opens => exact shows.consumer_turn apart spares reached here opens
  | @task index job here opens =>
    obtain ⟨count, inputs⟩ := shows.tasks.begun_of_task here
    have bound := (List.getElem?_eq_some_iff.mp here).1
    rcases Nat.lt_or_ge index run.inputs.length with below | above
    · exact shows.input_turn apart reached (List.getElem?_eq_getElem below) here opens
    · obtain rfl : index = feeds.length := by omega
      exact shows.supervisor_turn apart reached here opens
  | drop here may => exact shows.drop_turn apart reached here may
  | other spared =>
    obtain ⟨hub, flag, yielded, consumer, backed⟩ := shows
    have becomes := spared.flag
    rw [← flag] at becomes
    exact ⟨_, reached.raises becomes, hub.trans spared.hub.symm, rfl, yielded,
      consumer.mono id becomes.raised, backed.begun, backed.inputs, backed.supervisor⟩

/-- Whatever the order of its turns, a program that runs a merged feed stands where some merged run
of its inputs may come to. -/
theorem Program.exists_run (apart : Apart place cancellation)
    (spares : ∀ feed ∈ feeds, ∀ state, ItemsSpare place cancellation state (feed.flow state))
    {state : σ} (new : place.get state = .new)
    (flag : Flag.lowered.Becomes (cancellation.flag.get state))
    (turns : Turns place cancellation (start (flow place feeds cancellation) state) program) :
    ∃ run, Reachable feeds run ∧ program.Shows place cancellation feeds run := by
  induction turns with
  | refl =>
    exact ⟨_, Reachable.start.raises flag, new.symm, rfl, rfl, .launches, .inl ⟨rfl, rfl⟩, nofun,
      .unborn⟩
  | tail _ turn ih =>
    obtain ⟨run, reached, shows⟩ := ih
    exact shows.turn apart spares reached turn

/-! ### What a program sees -/

/-- The hub is there for the consumer until it is gone. -/
theorem Program.Shows.attached (shows : program.Shows place cancellation feeds run)
    (reached : Reachable feeds run) {cursor : Cursor σ α} (here : program.consumer = some cursor) :
    (place.get program.state).attached = true := by
  have consumer := shows.consumer
  rw [here] at consumer
  have present : run.consumer.isGone = false := by
    generalize run.consumer = stage at consumer
    cases consumer <;> rfl
  rw [← shows.hub, reached.lifecycle.2.attached, present]
  rfl

/-- Once the mark is set the supervisor is over. -/
theorem Program.Shows.supervisor_over (shows : program.Shows place cancellation feeds run)
    (reached : Reachable feeds run) (marked : (place.get program.state).running = false) :
    program.tasks[feeds.length]? = some none := by
  have supervisor := shows.tasks.supervisor
  rw [← shows.hub] at marked
  have closed := reached.lifecycle.2.closed marked
  generalize run.supervisor = stage, program.tasks[feeds.length]? = job at supervisor closed ⊢
  cases supervisor with
  | done => rfl
  | unborn | begins | waits | pays => cases closed

/-- A consumer that may not go on, although its turn has some allowance, waits for a call. -/
theorem Program.Shows.waits (shows : program.Shows place cancellation feeds run)
    {cursor : Cursor σ α} (here : program.consumer = some cursor)
    (may : ∃ state, cursor.wait.opens state = true) (allowed : 0 < Host.allowance program.state)
    (closed : cursor.wait.opens program.state = false) :
    ∃ seen, run.consumer = .waits seen ∧ (place.get program.state).signal.isCalled = false ∧
      (cancellation.flag.get program.state).calls seen = false := by
  have turn : Wait.turn.opens program.state = true := decide_eq_true allowed
  have consumer := shows.consumer
  rw [here] at consumer
  generalize run.consumer = stage at consumer
  cases consumer with
  | launches | rests => cases closed
  | selects | called => exact absurd (turn.symm.trans closed) Bool.noConfusion
  | waits => exact ⟨_, rfl, Bool.or_eq_false_iff.mp closed⟩
  | spent =>
    obtain ⟨state, opens⟩ := may
    cases opens

end turns

end Deferred.Merge
