import Deferred.Proofs.Merge.Looks
import Deferred.Proofs.Merge.Offers
import Deferred.Proofs.Merge.Program

/-! A program that runs a merged feed, with a chronicle of it: how often the consumer was polled,
where the stream of each input stands, and what the inputs have offered to the hub. Every program
has one, whatever the order of its turns. -/

namespace Deferred.Merge

variable {σ α : Type}

/-- The streams are those of the inputs in their order; a stream that was dropped or has come to its
end is none. -/
structure Chronicle (σ α : Type) extends Program σ α where
  streams : List (Option (Cursor σ α))
  polls : Nat
  offers : List (Offer α)

namespace Chronicle

def start (flow : Flow σ α) (state : σ) : Chronicle σ α :=
  { Program.start flow state with streams := [], polls := 0, offers := [] }

/-- The items that were ever enqueued, in their order. -/
def enqueued (now : Chronicle σ α) : List α :=
  takenOf now.offers

/-- The items that an input has pulled from its stream. -/
def pulled (now : Chronicle σ α) (index : Nat) : List α :=
  (now.offers.filter (·.index == index)).map (·.value)

/-- The turns of a program. The first poll of the consumer starts the streams. -/
inductive Turn [Host σ] (place : Place σ (Hub α)) (cancellation : Cancellation σ)
    (feeds : List (Feed σ α)) (now : Chronicle σ α) : Chronicle σ α → Prop where
  | consumer {cursor} (here : now.consumer = some cursor)
      (opens : cursor.wait.opens now.state = true) :
      Turn place cancellation feeds now {
        state := (cursor.resume now.state).state
        consumer := (cursor.resume now.state).cursor
        tasks := now.tasks ++
          (cursor.resume now.state).children.map fun child => some ⟨.passed, child⟩
        yielded := now.yielded ++ (cursor.resume now.state).yields
        streams :=
          if now.polls = 0 then feeds.map fun feed => some feed.flow.cursor else now.streams
        polls := now.polls + 1
        offers := now.offers }
  | input {index cursor} (here : now.streams[index]? = some (some cursor))
      (task : now.tasks[index]? = some (some (inputJob place index cursor)))
      (opens : cursor.wait.opens now.state = true) :
      Turn place cancellation feeds now { now with
        state := (feedTask place index (cursor.resume now.state)).state
        tasks := now.tasks.set index (feedTask place index (cursor.resume now.state)).job
        streams := now.streams.set index (remains place (cursor.resume now.state))
        offers := now.offers ++ Merge.offers place index (cursor.resume now.state) }
  | supervisor {job} (here : now.tasks[feeds.length]? = some (some job))
      (opens : job.wait.opens now.state = true) :
      Turn place cancellation feeds now { now with
        state := (job.resume now.state).state
        tasks := now.tasks.set feeds.length (job.resume now.state).job }
  | drop {cursor} (here : now.consumer = some cursor)
      (may : ∃ state, cursor.wait.opens state = true) :
      Turn place cancellation feeds now { now with
        state := cursor.wait.release now.state
        consumer := none }
  | other {state} (spares : Spares place cancellation now.state state) :
      Turn place cancellation feeds now { now with state }

abbrev Turns [Host σ] (place : Place σ (Hub α)) (cancellation : Cancellation σ)
    (feeds : List (Feed σ α)) : Chronicle σ α → Chronicle σ α → Prop :=
  Relation.ReflTransGen (Turn place cancellation feeds)

section erase

variable [Host σ] {place : Place σ (Hub α)} {cancellation : Cancellation σ}
  {feeds : List (Feed σ α)} {now next : Chronicle σ α}

theorem Turn.program (turn : Turn place cancellation feeds now next) :
    Program.Turn place cancellation now.toProgram next.toProgram := by
  cases turn with
  | consumer here opens => exact .consumer here opens
  | input here task opens => exact .task task opens
  | supervisor here opens => exact .task here opens
  | drop here may => exact .drop here may
  | other spares => exact .other spares

theorem Turns.program (turns : Turns place cancellation feeds now next) :
    Program.Turns place cancellation now.toProgram next.toProgram :=
  turns.lift toProgram fun _ _ => Turn.program

end erase

/-! ### What holds throughout -/

/-- A consumer that is there has at least the looks left that its polls cannot have taken. -/
structure Sound [Host σ] (place : Place σ (Hub α)) (cancellation : Cancellation σ)
    (feeds : List (Feed σ α)) (now : Chronicle σ α) : Prop where
  fresh : now.polls = 0 → now.streams = [] ∧ now.tasks = [] ∧
    ∀ cursor, now.consumer = some cursor → cursor = (flow place feeds cancellation).cursor
  begun : 0 < now.polls →
    now.streams.length = feeds.length ∧ now.tasks.length = feeds.length + 1
  jobs : ∀ (index : Nat) (stream : Option (Cursor σ α)), now.streams[index]? = some stream →
    now.tasks[index]? = some (stream.map (inputJob place index))
  spares : ∀ (index : Nat) (cursor : Cursor σ α), now.streams[index]? = some (some cursor) →
    ∀ state, ItemsSpare place cancellation state (cursor.resume state)
  poised : 0 < now.polls → ∀ cursor, now.consumer = some cursor →
    ∃ left, looks ≤ left + 2 * now.polls ∧
      Poised place cancellation left (cancellation.flag.get now.state) cursor
  gone : 0 < now.polls → now.consumer = none → (place.get now.state).attached = false
  kept : now.enqueued = now.yielded ++ (place.get now.state).queue.toList

section sound

variable [Host σ] {place : Place σ (Hub α)} {cancellation : Cancellation σ}
  {feeds : List (Feed σ α)} {now next : Chronicle σ α}

theorem Sound.start {state : σ} (new : place.get state = .new) :
    Sound place cancellation feeds (start (flow place feeds cancellation) state) where
  fresh _ := ⟨rfl, rfl, fun _ here => (Option.some.inj here).symm⟩
  begun := nofun
  jobs := nofun
  spares := nofun
  poised := nofun
  gone := nofun
  kept := by
    change [] = [] ++ (place.get state).queue.toList
    rw [new]
    rfl

/-- A turn of others than the consumer, in which these items were enqueued. -/
theorem Sound.serves {state : σ} {tasks : List (Option (Job σ))}
    {streams : List (Option (Cursor σ α))} {offered : List (Offer α)}
    (sound : now.Sound place cancellation feeds)
    (serves : Serves place cancellation now.state (takenOf offered) state)
    (count : tasks.length = now.tasks.length) (inputs : streams.length = now.streams.length)
    (jobs : ∀ (index : Nat) (stream : Option (Cursor σ α)), streams[index]? = some stream →
      tasks[index]? = some (stream.map (inputJob place index)))
    (spares : ∀ (index : Nat) (cursor : Cursor σ α), streams[index]? = some (some cursor) →
      ∀ state, ItemsSpare place cancellation state (cursor.resume state)) :
    Sound place cancellation feeds
      { now with state, tasks, streams, offers := now.offers ++ offered } where
  fresh none := by
    obtain ⟨noStreams, noTasks, launches⟩ := sound.fresh none
    rw [noStreams] at inputs
    rw [noTasks] at count
    exact ⟨List.eq_nil_of_length_eq_zero inputs, List.eq_nil_of_length_eq_zero count, launches⟩
  begun begun := ⟨inputs.trans (sound.begun begun).1, count.trans (sound.begun begun).2⟩
  jobs := jobs
  spares := spares
  poised begun cursor here := by
    obtain ⟨left, bound, poised⟩ := sound.poised begun cursor here
    exact ⟨left, bound, poised.mono serves.flag⟩
  gone begun none := serves.attached.trans (sound.gone begun none)
  kept := by
    have before := sound.kept
    unfold enqueued at before ⊢
    rw [takenOf_append, before, serves.queue, List.append_assoc]

/-- A turn in which no input did anything. -/
theorem Sound.still {state : σ} {tasks : List (Option (Job σ))}
    (sound : now.Sound place cancellation feeds)
    (serves : Serves place cancellation now.state [] state)
    (count : tasks.length = now.tasks.length)
    (jobs : ∀ (index : Nat) (stream : Option (Cursor σ α)), now.streams[index]? = some stream →
      tasks[index]? = some (stream.map (inputJob place index))) :
    Sound place cancellation feeds { now with state, tasks } := by
  have none : Serves place cancellation now.state (takenOf []) state := serves
  have later := sound.serves none count rfl jobs sound.spares
  rwa [List.append_nil] at later

theorem getElem?_spawned {index : Nat} {feed : Feed σ α} (found : feeds[index]? = some feed) :
    (spawned place feeds)[index]? = some (input place index feed) := by
  have bound := (List.getElem?_eq_some_iff.mp found).1
  rw [spawned, List.getElem?_append_left (by simpa using bound)]
  simp [List.getElem?_zipIdx, found]

/-- The first poll spawns the tasks, and then it is a poll like any other. -/
theorem flow_apply (apart : Apart place cancellation) (feeds : List (Feed σ α)) (state : σ) :
    ∃ begun, Alike place cancellation state begun ∧
      (flow place feeds cancellation state).Agrees (consume place cancellation looks begun) ∧
      (flow place feeds cancellation state).children = spawned place feeds := by
  let begun := Host.trace (.mergeStarted feeds.length) state
  obtain ⟨-, -, -, children⟩ :=
    Flow.spawning_apply (spawned place feeds) (consume place cancellation looks) begun
  rw [(consume_polled apart looks begun).children, List.append_nil] at children
  have hub := apart.hub_trace (.mergeStarted feeds.length) state
  exact ⟨begun, ⟨apart.flag_trace _ _, by rw [hub], by rw [hub]⟩,
    Flow.spawning_agrees (spawned place feeds) (consume place cancellation looks) begun, children⟩

/-- The first poll of the consumer. -/
theorem Sound.launch (apart : Apart place cancellation)
    (spares : ∀ feed ∈ feeds, ∀ state, ItemsSpare place cancellation state (feed.flow state))
    (sound : now.Sound place cancellation feeds) {items : Items σ α}
    (polled : flow place feeds cancellation now.state = items) :
    Sound place cancellation feeds {
      state := items.state
      consumer := items.cursor
      tasks := items.children.map fun child => some ⟨.passed, child⟩
      yielded := now.yielded ++ items.yields
      streams := feeds.map fun feed => some feed.flow.cursor
      polls := 1
      offers := now.offers } := by
  obtain ⟨begun, alike, agrees, children⟩ := flow_apply apart feeds now.state
  rw [polled] at agrees children
  have poll := (consume_polled_two apart looks begun).of_alike alike
  rw [agrees.cursor, agrees.state, agrees.yields, children]
  refine ⟨nofun, fun _ => ⟨by simp, by simp [spawned]⟩, ?_, ?_, fun _ consumer here => ?_,
    fun _ ended => poll.gone ended, ?_⟩
  · intro index stream found
    rw [List.getElem?_map, Option.map_eq_some_iff] at found
    obtain ⟨feed, found, rfl⟩ := found
    rw [List.getElem?_map, getElem?_spawned found, input_eq]
    rfl
  · intro index stream found state
    rw [List.getElem?_map, Option.map_eq_some_iff] at found
    obtain ⟨feed, found, same⟩ := found
    obtain rfl := Option.some.inj same
    exact spares feed (List.mem_of_getElem? found) state
  · obtain ⟨left, bound, poised⟩ := poll.poised consumer here
    exact ⟨left, by omega, poised⟩
  · have before := sound.kept
    rw [poll.queue, ← List.append_assoc] at before
    exact before

/-- A later poll of the consumer. -/
theorem Sound.consumer (apart : Apart place cancellation)
    (sound : now.Sound place cancellation feeds) (begun : 0 < now.polls) {cursor : Cursor σ α}
    (here : now.consumer = some cursor) (opens : cursor.wait.opens now.state = true) :
    (cursor.resume now.state).children = [] ∧ Sound place cancellation feeds { now with
      state := (cursor.resume now.state).state
      consumer := (cursor.resume now.state).cursor
      yielded := now.yielded ++ (cursor.resume now.state).yields
      polls := now.polls + 1 } := by
  obtain ⟨left, bound, poised⟩ := sound.poised begun cursor here
  have poll := poised.polled apart opens
  refine ⟨poll.children, ⟨nofun, fun _ => sound.begun begun, sound.jobs, sound.spares,
    fun _ consumer there => ?_, fun _ ended => poll.gone ended, ?_⟩⟩
  · obtain ⟨more, rest, poised⟩ := poll.poised consumer there
    exact ⟨more, by dsimp only; omega, poised⟩
  · have before := sound.kept
    rw [poll.queue, ← List.append_assoc] at before
    exact before

theorem Sound.begun_of_stream (sound : now.Sound place cancellation feeds) {index : Nat}
    {stream : Option (Cursor σ α)} (found : now.streams[index]? = some stream) : 0 < now.polls := by
  refine Nat.pos_of_ne_zero fun none => ?_
  rw [(sound.fresh none).1] at found
  cases found

theorem Sound.drop (apart : Apart place cancellation) (sound : now.Sound place cancellation feeds)
    {cursor : Cursor σ α} (here : now.consumer = some cursor) :
    Sound place cancellation feeds { now with
      state := cursor.wait.release now.state
      consumer := none } := by
  rcases Nat.eq_zero_or_pos now.polls with none | begun
  · obtain ⟨noStreams, noTasks, launches⟩ := sound.fresh none
    obtain rfl := launches cursor here
    exact ⟨fun _ => ⟨noStreams, noTasks, nofun⟩, fun begun => absurd none (Nat.ne_of_gt begun),
      sound.jobs, sound.spares, nofun, fun begun => absurd none (Nat.ne_of_gt begun), sound.kept⟩
  · obtain ⟨left, bound, poised⟩ := sound.poised begun cursor here
    rw [poised.release]
    have detached := (apart.modify Hub.detach now.state).1
    refine ⟨fun none => absurd none (Nat.ne_of_gt begun), sound.begun, sound.jobs, sound.spares,
      nofun, fun _ _ => congrArg Hub.attached detached, ?_⟩
    have queue := congrArg (·.queue.toList) detached
    exact sound.kept.trans (congrArg (now.yielded ++ ·) queue.symm)

theorem Sound.input (apart : Apart place cancellation) (sound : now.Sound place cancellation feeds)
    {index : Nat} {cursor : Cursor σ α} (here : now.streams[index]? = some (some cursor)) :
    Sound place cancellation feeds { now with
      state := (feedTask place index (cursor.resume now.state)).state
      tasks := now.tasks.set index (feedTask place index (cursor.resume now.state)).job
      streams := now.streams.set index (remains place (cursor.resume now.state))
      offers := now.offers ++ Merge.offers place index (cursor.resume now.state) } := by
  have spares := sound.spares index cursor here now.state
  refine sound.serves (spares.serves apart) List.length_set List.length_set ?_ ?_
  · intro other stream found
    rcases getElem?_set_eq_some found with ⟨rfl, rfl⟩ | ⟨apart, found⟩
    · have bound := (List.getElem?_eq_some_iff.mp (sound.jobs index _ here)).1
      rw [List.getElem?_set_self bound, job_feedTask]
    · rw [List.getElem?_set_ne apart]
      exact sound.jobs other stream found
  · intro other left found
    rcases getElem?_set_eq_some found with ⟨rfl, same⟩ | ⟨apart, found⟩
    · exact spares.resumes same.symm
    · exact sound.spares other left found

theorem Sound.supervisor (apart : Apart place cancellation)
    (sound : now.Sound place cancellation feeds) {run : Run σ α} (reached : Reachable feeds run)
    (shows : now.toProgram.Shows place cancellation feeds run) {job : Job σ}
    (here : now.tasks[feeds.length]? = some (some job))
    (opens : job.wait.opens now.state = true) :
    Sound place cancellation feeds { now with
      state := (job.resume now.state).state
      tasks := now.tasks.set feeds.length (job.resume now.state).job } := by
  have supervisor := shows.tasks.supervisor
  have all := reached.ends_le
  rw [here, shows.hub] at supervisor
  rw [shows.hub] at all
  obtain ⟨-, last, recorded, steps, flag, -⟩ := supervisor.comes apart opens all
  obtain ⟨queue, attached⟩ := steps.frame
  have serves : Serves place cancellation now.state [] (job.resume now.state).state :=
    ⟨by rw [queue, List.append_nil], attached, flag ▸ .refl⟩
  refine sound.still serves List.length_set fun index stream found => ?_
  have bound := (List.getElem?_eq_some_iff.mp found).1
  rw [(sound.begun (sound.begun_of_stream found)).1] at bound
  rw [List.getElem?_set_ne (Nat.ne_of_gt bound)]
  exact sound.jobs index stream found

theorem Turn.sound (apart : Apart place cancellation)
    (spares : ∀ feed ∈ feeds, ∀ state, ItemsSpare place cancellation state (feed.flow state))
    {run : Run σ α} (reached : Reachable feeds run)
    (shows : now.toProgram.Shows place cancellation feeds run)
    (turn : Turn place cancellation feeds now next) (sound : now.Sound place cancellation feeds) :
    next.Sound place cancellation feeds := by
  cases turn with
  | @consumer cursor here opens =>
    rcases Nat.eq_zero_or_pos now.polls with none | begun
    · obtain ⟨noStreams, noTasks, launches⟩ := sound.fresh none
      obtain rfl := launches cursor here
      rw [noTasks, none, if_pos rfl]
      exact sound.launch apart spares rfl
    · obtain ⟨children, later⟩ := sound.consumer apart begun here opens
      rw [children, if_neg (Nat.ne_of_gt begun), List.map_nil, List.append_nil]
      exact later
  | input here => exact sound.input apart here
  | supervisor here opens => exact sound.supervisor apart reached shows here opens
  | drop here => exact sound.drop apart here
  | other spared =>
    have serves : Serves place cancellation now.state (takenOf []) _ := .ofSpares spared
    have sound := sound.serves serves rfl rfl sound.jobs sound.spares
    rw [List.append_nil] at sound
    exact sound

theorem Turns.sound (apart : Apart place cancellation)
    (spares : ∀ feed ∈ feeds, ∀ state, ItemsSpare place cancellation state (feed.flow state))
    {state : σ} (new : place.get state = .new)
    (flag : Flag.lowered.Becomes (cancellation.flag.get state))
    (turns : Turns place cancellation feeds (.start (flow place feeds cancellation) state) now) :
    now.Sound place cancellation feeds := by
  induction turns with
  | refl => exact .start new
  | tail earlier turn ih =>
    obtain ⟨run, reached, shows⟩ := Program.exists_run apart spares new flag (Turns.program earlier)
    exact turn.sound apart spares reached shows ih

/-- Each turn of a program continues its chronicle. -/
theorem Sound.exists_turn (sound : now.Sound place cancellation feeds) {program : Program σ α}
    (turn : Program.Turn place cancellation now.toProgram program) :
    ∃ next : Chronicle σ α,
      next.toProgram = program ∧ Turn place cancellation feeds now next := by
  cases turn with
  | consumer here opens => exact ⟨_, rfl, .consumer here opens⟩
  | @task index job here opens =>
    have bound := (List.getElem?_eq_some_iff.mp here).1
    have begun : 0 < now.polls := Nat.pos_of_ne_zero fun none => by
      rw [(sound.fresh none).2.1] at here
      cases here
    obtain ⟨inputs, count⟩ := sound.begun begun
    rcases Nat.lt_or_ge index feeds.length with below | above
    · rw [← inputs] at below
      have there := List.getElem?_eq_getElem below
      have same := (sound.jobs index _ there).symm.trans here
      rcases stream : now.streams[index] with _ | cursor <;> rw [stream] at there same
      · cases same
      · obtain rfl := Option.some.inj (Option.some.inj same)
        exact ⟨_, rfl, .input there here opens⟩
    · obtain rfl : index = feeds.length := by omega
      exact ⟨_, rfl, .supervisor here opens⟩
  | drop here may => exact ⟨_, rfl, .drop here may⟩
  | other spares => exact ⟨_, rfl, .other spares⟩

/-- Every program has a chronicle. -/
theorem exists_turns (apart : Apart place cancellation)
    (spares : ∀ feed ∈ feeds, ∀ state, ItemsSpare place cancellation state (feed.flow state))
    {state : σ} (new : place.get state = .new)
    (flag : Flag.lowered.Becomes (cancellation.flag.get state)) {program : Program σ α}
    (turns : Program.Turns place cancellation (.start (flow place feeds cancellation) state)
      program) :
    ∃ now : Chronicle σ α, now.toProgram = program ∧
      Turns place cancellation feeds (.start (flow place feeds cancellation) state) now := by
  induction turns with
  | refl => exact ⟨_, rfl, .refl⟩
  | tail _ turn ih =>
    obtain ⟨now, rfl, earlier⟩ := ih
    obtain ⟨next, same, turn⟩ := (Turns.sound apart spares new flag earlier).exists_turn turn
    exact ⟨next, same, earlier.tail turn⟩

/-- When the supervisor is over, so are all inputs. -/
theorem Sound.streams_over (sound : now.Sound place cancellation feeds) {run : Run σ α}
    (reached : Reachable feeds run) (shows : now.toProgram.Shows place cancellation feeds run)
    (finished : now.tasks[feeds.length]? = some none) : ∀ stream ∈ now.streams, stream = none := by
  intro stream member
  obtain ⟨index, here⟩ := List.mem_iff_getElem?.mp member
  have supervisor := shows.tasks.supervisor
  rw [finished] at supervisor
  have joined : run.supervisor.hasJoined = true := by
    generalize run.supervisor = stage at supervisor
    cases supervisor with
    | done => rfl
  have inputs := (shows.tasks.begun_of_task finished).2
  have bound := (List.getElem?_eq_some_iff.mp here).1
  rw [(sound.begun (sound.begun_of_stream here)).1, ← inputs] at bound
  have found := List.getElem?_eq_getElem bound
  have done := reached.lifecycle.2.joined joined _ (List.mem_of_getElem? found)
  obtain ⟨job, task, stands⟩ := shows.tasks.inputs index _ found
  have same := (sound.jobs index stream here).symm.trans task
  generalize run.inputs[index].stage = stage at done stands
  cases stands with
  | pulls => cases done
  | done => exact Option.map_eq_none_iff.mp (Option.some.inj same)

end sound

end Chronicle

end Deferred.Merge
