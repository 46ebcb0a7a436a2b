import Deferred.Proofs.Merge.Chronicle
import Deferred.Proofs.Notebook

/-! How a merged run comes to its end: by a cancellation of its scope, or because the consumer has
gone. A cancelled consumer ends with its next poll and says how many items it drops, which are those
that were enqueued and not yielded. From then on nothing is enqueued. Nobody stops the inputs: each
goes on with its stream until that gives one more item, which is refused, or is over by itself. -/

namespace Deferred.Merge

variable {σ α : Type}

namespace Chronicle

/-- The polls of a consumer that is there. -/
structure Closes [Host σ] (place : Place σ (Hub α)) (cancellation : Cancellation σ)
    (now : Chronicle σ α) : Prop where
  /-- After the cancellation no poll yields. -/
  yields : ∀ cursor, now.consumer = some cursor → cancellation.isCancelled now.state = true →
    (cursor.poll now.state).yields = []
  /-- After the cancellation the next poll ends the run, if a suspended consumer has allowance. -/
  ends : ∀ cursor, now.consumer = some cursor → cancellation.isCancelled now.state = true →
    2 * now.polls < looks → (cursor.IsSuspended → 0 < Host.allowance now.state) →
      ∃ dropped, dropped + now.yielded.length = now.enqueued.length ∧
        Cancels place dropped (cursor.poll now.state)
  /-- In a turn without allowance a suspended consumer stays, and nothing happens. -/
  stays : ∀ cursor, now.consumer = some cursor → cancellation.isCancelled now.state = true →
    cursor.IsSuspended → Host.allowance now.state = 0 →
      (cursor.poll now.state).cursor ≠ none ∧ (cursor.poll now.state).state = now.state
  /-- Without a cancellation of its own scope the run ends only when the supervisor has set the mark
  and everything is drained. -/
  drains : ∀ cursor, now.consumer = some cursor → cancellation.isCancelled now.state = false →
    (cursor.poll now.state).cursor = none →
      (place.get now.state).running = false ∧ (place.get now.state).queue.toList = []

/-- In the time between, an input has pulled at most one item, and dropped its stream with it. -/
def PullsLast (now later : Chronicle σ α) (index : Nat) : Prop :=
  ∃ last, later.pulled index = now.pulled index ++ last ∧ last.length ≤ 1 ∧
    (last ≠ [] → later.streams[index]? = some none)

theorem PullsLast.refl (now : Chronicle σ α) (index : Nat) : now.PullsLast now index :=
  ⟨[], (List.append_nil _).symm, Nat.zero_le _, fun pulled => absurd rfl pulled⟩

/-- An input whose stream is still there has pulled nothing. -/
theorem PullsLast.pulled_eq {now later : Chronicle σ α} {index : Nat} {cursor : Cursor σ α}
    (pulls : now.PullsLast later index) (here : later.streams[index]? = some (some cursor)) :
    later.pulled index = now.pulled index := by
  obtain ⟨last, same, -, stops⟩ := pulls
  cases last with
  | nil => rw [same, List.append_nil]
  | cons value rest =>
    have stopped := stops (List.cons_ne_nil value rest)
    rw [here] at stopped
    cases stopped

/-- What has become of the inputs since the consumer was gone. -/
structure Deserts [Host σ] (place : Place σ (Hub α)) (now later : Chronicle σ α) : Prop where
  consumer : later.consumer = none ∧ later.yielded = now.yielded
  enqueued : later.enqueued = now.enqueued
  queue : (place.get later.state).queue.toList = (place.get now.state).queue.toList
  pulls : ∀ index, now.PullsLast later index
  /-- The task of an input whose stream is dropped is over. -/
  ended : ∀ index : Nat, later.streams[index]? = some none → later.tasks[index]? = some none
  /-- As long as it is not, its turns are polls of the stream. -/
  lingers : ∀ (index : Nat) (cursor : Cursor σ α), later.streams[index]? = some (some cursor) →
    later.tasks[index]? = some (some (inputJob place index cursor)) ∧
      Lingers place index (cursor.resume later.state)
        (Merge.offers place index (cursor.resume later.state))
        (feedTask place index (cursor.resume later.state)).job
        (feedTask place index (cursor.resume later.state)).state

/-- Nothing but its own turns touches an input. -/
def Undisturbed [Host σ] (place : Place σ (Hub α)) (cancellation : Cancellation σ)
    (feeds : List (Feed σ α)) (now : Chronicle σ α) : Prop :=
  ∀ (index : Nat) (cursor : Cursor σ α) (next : Chronicle σ α),
    now.streams[index]? = some (some cursor) → Turn place cancellation feeds now next →
      next.streams[index]? = some (some cursor) ∨
        cursor.wait.opens now.state = true ∧
        next.streams[index]? = some (remains place (cursor.resume now.state)) ∧
        next.state = (feedTask place index (cursor.resume now.state)).state

section

variable [Host σ] {place : Place σ (Hub α)} {cancellation : Cancellation σ}
  {feeds : List (Feed σ α)} {now next later : Chronicle σ α}

/-! ### The consumer -/

/-- What a poll after the cancellation comes to, be it the first one or a later one. -/
theorem Sound.heeds (apart : Apart place cancellation) (sound : now.Sound place cancellation feeds)
    {cursor : Cursor σ α} (here : now.consumer = some cursor)
    (raised : cancellation.isCancelled now.state = true) :
    ∃ left items, looks ≤ left + 2 * now.polls ∧ (cursor.poll now.state).Agrees items ∧
      Heeds place cancellation left cursor now.state items := by
  rcases Nat.eq_zero_or_pos now.polls with none | begun
  · obtain rfl := (sound.fresh none).2.2 cursor here
    obtain ⟨begun, alike, agrees, -⟩ := flow_apply apart feeds now.state
    rw [Cursor.poll_of_opens rfl]
    exact ⟨looks, _, by omega, agrees, .looks alike nofun⟩
  · obtain ⟨left, bound, poised⟩ := sound.poised begun cursor here
    exact ⟨left, _, bound, .refl _, poised.heeds apart raised⟩

theorem Sound.closes (apart : Apart place cancellation)
    (sound : now.Sound place cancellation feeds) : now.Closes place cancellation where
  yields cursor here raised := by
    obtain ⟨left, items, -, agrees, heeds⟩ := sound.heeds apart here raised
    rw [agrees.yields]
    cases heeds with
    | looks alike => exact consume_yields left (by rw [alike.flag]; exact raised)
    | stops => rfl
  ends cursor here raised few allowed := by
    obtain ⟨left, items, bound, agrees, heeds⟩ := sound.heeds apart here raised
    cases left with
    | zero => omega
    | succ left =>
      cases heeds with
      | @looks after alike =>
        have cancels := consume_cancels apart left (by rw [alike.flag]; exact raised)
        rw [alike.queue] at cancels
        refine ⟨_, ?_, cancels.of_agrees agrees⟩
        rw [sound.kept, List.length_append, Nat.add_comm]
      | stops broke =>
        obtain ⟨broke, suspended⟩ := broke (Nat.succ_pos left)
        exact absurd (allowed suspended) (by omega)
  stays cursor here raised suspended broke := by
    obtain ⟨left, items, -, agrees, heeds⟩ := sound.heeds apart here raised
    rw [agrees.cursor, agrees.state]
    cases heeds with
    | looks alike allowed => exact absurd (allowed suspended) (by omega)
    | stops => exact ⟨nofun, rfl⟩
  drains cursor here lowered ended := by
    by_cases opens : cursor.wait.opens now.state = true
    · rw [Cursor.poll_of_opens opens] at ended
      rcases Nat.eq_zero_or_pos now.polls with none | begun
      · obtain rfl := (sound.fresh none).2.2 cursor here
        obtain ⟨begun, alike, agrees, -⟩ := flow_apply apart feeds now.state
        have stopped := agrees.cursor.symm.trans ended
        exact ((consume_polled apart looks begun).of_alike alike).ended stopped lowered
      · obtain ⟨left, -, poised⟩ := sound.poised begun cursor here
        exact (poised.polled apart opens).ended ended lowered
    · rw [Cursor.poll_of_closed opens] at ended
      cases ended

/-! ### The inputs -/

theorem Turn.undisturbed (sound : now.Sound place cancellation feeds) {index : Nat}
    {cursor : Cursor σ α} (there : now.streams[index]? = some (some cursor))
    (turn : Turn place cancellation feeds now next) :
    next.streams[index]? = some (some cursor) ∨
      cursor.wait.opens now.state = true ∧
      next.streams[index]? = some (remains place (cursor.resume now.state)) ∧
      next.state = (feedTask place index (cursor.resume now.state)).state := by
  cases turn with
  | consumer =>
    left
    rw [if_neg (Nat.ne_of_gt (sound.begun_of_stream there))]
    exact there
  | @input other stream here task opens =>
    by_cases same : other = index
    · subst same
      obtain rfl := Option.some.inj (Option.some.inj (here.symm.trans there))
      exact .inr ⟨opens, List.getElem?_set_self (List.getElem?_eq_some_iff.mp here).1, rfl⟩
    · left
      rw [List.getElem?_set_ne same]
      exact there
  | supervisor | drop | other => exact .inl there

/-- What is left to show about the time since the consumer was gone. -/
theorem Deserts.of_sound (before : now.Sound place cancellation feeds)
    (sound : later.Sound place cancellation feeds)
    (consumer : later.consumer = none ∧ later.yielded = now.yielded)
    (enqueued : later.enqueued = now.enqueued) (pulls : ∀ index, now.PullsLast later index) :
    Deserts place now later where
  consumer := consumer
  enqueued := enqueued
  queue := by
    have kept := sound.kept
    rw [enqueued, consumer.2, before.kept] at kept
    exact (List.append_cancel_left kept).symm
  pulls := pulls
  ended index := sound.jobs index none
  lingers index cursor there := by
    have detached := sound.gone (sound.begun_of_stream there) consumer.1
    exact ⟨sound.jobs index _ there, (sound.spares index cursor there _).lingers detached⟩

/-- A turn of an input whose consumer is gone. -/
theorem Deserts.input (deserts : Deserts place now later) {index : Nat} {cursor : Cursor σ α}
    (here : later.streams[index]? = some (some cursor)) {state : σ}
    {tasks : List (Option (Job σ))} :
    let next : Chronicle σ α := { later with
      state, tasks
      streams := later.streams.set index (remains place (cursor.resume later.state))
      offers := later.offers ++ Merge.offers place index (cursor.resume later.state) }
    next.enqueued = later.enqueued ∧ ∀ other, now.PullsLast next other := by
  intro next
  have own := (deserts.pulls index).pulled_eq here
  have bound := (List.getElem?_eq_some_iff.mp here).1
  have grows : ∀ other, next.pulled other = later.pulled other ++
      ((Merge.offers place index (cursor.resume later.state)).filter (·.index == other)).map
        (·.value) := fun other => by
    simp only [Chronicle.pulled, next, List.filter_append, List.map_append]
  have others : ∀ other, index ≠ other → next.pulled other = later.pulled other →
      now.PullsLast next other := fun other apart same => by
    obtain ⟨last, pulled, few, stops⟩ := deserts.pulls other
    exact ⟨last, same.trans pulled, few, by rwa [List.getElem?_set_ne apart]⟩
  obtain ⟨-, lingers⟩ := deserts.lingers index cursor here
  rcases lingers.refuses with nothing | ⟨value, single, ended⟩
  · rw [nothing] at grows
    refine ⟨by simp [Chronicle.enqueued, next, nothing], fun other => ?_⟩
    have same : next.pulled other = later.pulled other := (grows other).trans (List.append_nil _)
    by_cases itself : index = other
    · subst itself
      exact ⟨[], by rw [same, own, List.append_nil], Nat.zero_le _, fun pulled => absurd rfl pulled⟩
    · exact others other itself same
  · rw [single] at grows
    refine ⟨by simp [Chronicle.enqueued, next, single, takenOf], fun other => ?_⟩
    by_cases itself : index = other
    · subst itself
      have stopped : remains place (cursor.resume later.state) = none := by
        rwa [job_feedTask, Option.map_eq_none_iff] at ended
      refine ⟨[value], by rw [grows, own]; simp, Nat.le_refl 1, fun _ => ?_⟩
      dsimp only [next]
      rw [stopped, List.getElem?_set_self bound]
    · exact others other itself (by rw [grows]; simp [itself])

theorem Deserts.turn (before : now.Sound place cancellation feeds)
    (deserts : Deserts place now later) (turn : Turn place cancellation feeds later next)
    (sound : next.Sound place cancellation feeds) : Deserts place now next := by
  have gone := deserts.consumer.1
  cases turn with
  | consumer here | drop here =>
    rw [gone] at here
    cases here
  | input here =>
    obtain ⟨enqueued, pulls⟩ := deserts.input here
    exact .of_sound before sound deserts.consumer (enqueued.trans deserts.enqueued) pulls
  | supervisor | other =>
    exact .of_sound before sound deserts.consumer deserts.enqueued deserts.pulls

theorem Turns.deserts (apart : Apart place cancellation)
    (spares : ∀ feed ∈ feeds, ∀ state, ItemsSpare place cancellation state (feed.flow state))
    {state : σ} (new : place.get state = .new)
    (flag : Flag.lowered.Becomes (cancellation.flag.get state))
    (turns : Turns place cancellation feeds (.start (flow place feeds cancellation) state) now)
    (gone : now.consumer = none) (further : Turns place cancellation feeds now later) :
    Deserts place now later := by
  have before := Turns.sound apart spares new flag turns
  induction further with
  | refl => exact .of_sound before before ⟨gone, rfl⟩ rfl (PullsLast.refl now)
  | tail further turn ih =>
    exact ih.turn before turn (Turns.sound apart spares new flag ((turns.trans further).tail turn))

end

end Chronicle

/-- A merged run ends with the next poll after its scope was cancelled, unless a turn without
allowance puts that off, and otherwise only when everything is drained. Once the consumer is gone
nothing is enqueued any more, and each input ends by itself, after one more item at the latest. -/
theorem Program.ends_and_deserts [Host σ] {place : Place σ (Hub α)}
    {cancellation : Cancellation σ} {feeds : List (Feed σ α)} {program : Program σ α}
    (apart : Apart place cancellation)
    (spares : ∀ feed ∈ feeds, ∀ state, ItemsSpare place cancellation state (feed.flow state))
    {state : σ} (new : place.get state = .new)
    (flag : Flag.lowered.Becomes (cancellation.flag.get state))
    (turns : Turns place cancellation (.start (flow place feeds cancellation) state) program) :
    (∃ now : Chronicle σ α, now.toProgram = program ∧ Chronicle.Turns place cancellation feeds
      (.start (flow place feeds cancellation) state) now) ∧
    (∀ now : Chronicle σ α, now.toProgram = program → Chronicle.Turns place cancellation feeds
      (.start (flow place feeds cancellation) state) now →
        now.Closes place cancellation ∧ now.Undisturbed place cancellation feeds ∧
        (now.consumer = none → ∀ later, Chronicle.Turns place cancellation feeds now later →
          now.Deserts place later) ∧
        ∀ other : Cancellation σ,
          (∀ flag s, place.get (other.flag.set flag s) = place.get s) →
          (∀ flag s, cancellation.flag.get (other.flag.set flag s) = cancellation.flag.get s) →
          Chronicle.Turn place cancellation feeds now
            { now with state := (other.cancel now.state).2 } ∧
          cancellation.isCancelled (other.cancel now.state).2 =
            cancellation.isCancelled now.state) ∧
    ∀ (hubs : Arena σ (Hub α)) (flags : Arena σ Flag) (s : σ),
      (Feed.mergeAll hubs flags feeds s).1 =
        .merge hubs feeds ⟨⟨(flags.fresh .lowered s).1⟩⟩ := by
  refine ⟨Chronicle.exists_turns apart spares new flag turns, fun now _ told => ?_,
    fun _ _ _ => rfl⟩
  have sound := Chronicle.Turns.sound apart spares new flag told
  refine ⟨sound.closes apart, fun index cursor next there turn => turn.undisturbed sound there,
    fun gone later further => Chronicle.Turns.deserts apart spares new flag told gone further,
    fun other hub flag => ?_⟩
  have same : cancellation.flag.get (other.cancel now.state).2 =
      cancellation.flag.get now.state := flag _ _
  exact ⟨.other ⟨hub _ _, same ▸ .refl⟩, congrArg Flag.raised same⟩

/-! ### Two items -/

/-- A hub and a flag side by side. -/
abbrev Desk : Type := Notebook (Hub Nat × Flag)

namespace Desk

def hub : Place Desk (Hub Nat) :=
  ⟨fun desk => desk.cell.1, fun hub desk => { desk with cell := (hub, desk.cell.2) },
    fun _ _ => rfl⟩

def token : Cancellation Desk :=
  ⟨⟨fun desk => desk.cell.2, fun flag desk => { desk with cell := (desk.cell.1, flag) },
    fun _ _ => rfl⟩⟩

def opened : Desk := Notebook.opened (.new, .lowered)

def feeds : List (Feed Desk Nat) := [.ofList [7, 8]]

theorem apart : Apart hub token where
  flag_set _ _ := rfl
  hub_allow _ _ := rfl
  flag_allow _ _ := rfl
  hub_record _ _ := rfl
  flag_record _ _ := rfl
  hub_trace _ _ := rfl
  flag_trace _ _ := rfl

theorem spares : ∀ feed ∈ feeds, ∀ state, ItemsSpare hub token state (feed.flow state) := by
  intro feed member
  rw [List.mem_singleton.mp member]
  exact ItemsSpare.ofList hub token [7, 8]

/-- The consumer has been polled and waits. -/
def waiting : Chronicle Desk Nat where
  state := { opened with
    events := [.mergeStarted 1]
    cell := (⟨.empty, ⟨false, .waiting⟩, true, true, []⟩, .lowered) }
  consumer := some
    ⟨⟨none, fun s => (hub.get s).signal.isCalled || (token.wait 0).opens s, detach hub⟩,
      afford hub fun s => consume hub token (looks - 2) (answer hub s)⟩
  tasks := (spawned hub feeds).map fun child => some ⟨.passed, child⟩
  yielded := []
  streams := feeds.map fun feed => some feed.flow.cursor
  polls := 1
  offers := []

/-- Then the input has pushed both items, and is over. -/
def pushed : Chronicle Desk Nat :=
  { waiting with
    state := { waiting.state with
      cell := (⟨⟨[], [8, 7]⟩, ⟨true, .called⟩, true, true, [(0, none)]⟩, .lowered) }
    tasks := waiting.tasks.set 0 none
    streams := [none]
    offers := [⟨0, 7, true⟩, ⟨0, 8, true⟩] }

/-- The scope is cancelled, and so much is left of the allowance of the turn. -/
def cancelled (left : Nat) (now : Chronicle Desk Nat) : Chronicle Desk Nat :=
  { now with state := { now.state with left, cell := (now.state.cell.1, .raise .lowered) } }

theorem turns_waiting :
    Chronicle.Turns hub token feeds (.start (flow hub feeds token) opened) waiting := by
  have polled := @Chronicle.Turn.consumer _ _ _ hub token feeds
    (.start (flow hub feeds token) opened) (flow hub feeds token).cursor rfl rfl
  exact .single polled

theorem turn_pushed : Chronicle.Turn hub token feeds waiting pushed := by
  have pushes := @Chronicle.Turn.input _ _ _ hub token feeds waiting 0
    (Feed.flow (.ofList [7, 8])).cursor rfl rfl rfl
  exact pushes

theorem turn_cancelled {now : Chronicle Desk Nat} (lowered : now.state.cell.2 = .lowered)
    (left : Nat) : Chronicle.Turn hub token feeds now (cancelled left now) :=
  .other ⟨rfl, .single (congrArg Flag.raise lowered.symm)⟩

end Desk

open Desk in
/-- Both items are enqueued when the scope is cancelled, and are dropped. -/
theorem Program.two_items_dropped :
    ∃ (now next : Chronicle Desk Nat) (cursor : Cursor Desk Nat),
      Chronicle.Turns hub token feeds (.start (flow hub feeds token) opened) now ∧
      now.consumer = some cursor ∧ Cancels hub 2 (cursor.poll now.state) ∧
      Chronicle.Turn hub token feeds now next ∧ next.consumer = none ∧
      ∀ later, Chronicle.Turns hub token feeds next later → later.enqueued = [7, 8] := by
  have told := (turns_waiting.tail turn_pushed).tail (turn_cancelled rfl 128)
  have lowered : Flag.lowered.Becomes (token.flag.get opened) := .refl
  obtain ⟨-, closes, -⟩ :=
    Program.ends_and_deserts apart spares rfl lowered (Chronicle.Turns.program told)
  obtain ⟨⟨-, ends, -, -⟩, -⟩ := closes _ rfl told
  obtain ⟨dropped, all, cancels⟩ := ends _ rfl rfl (by decide) fun _ => by decide
  obtain rfl : dropped = 2 := all
  have last := @Chronicle.Turn.consumer _ _ _ hub token feeds (cancelled 128 pushed) _ rfl rfl
  have later := told.tail last
  obtain ⟨-, deserts, -⟩ :=
    Program.ends_and_deserts apart spares rfl lowered (Chronicle.Turns.program later)
  obtain ⟨-, -, deserts, -⟩ := deserts _ rfl later
  exact ⟨_, _, _, told, rfl, cancels, last, rfl, fun after further =>
    (deserts rfl after further).enqueued⟩

open Desk in
/-- The turn in which the scope is cancelled has no allowance left. -/
theorem Chronicle.cancellation_put_off :
    ¬∀ (now : Chronicle Desk Nat) (cursor : Cursor Desk Nat),
      Chronicle.Turns hub token feeds (.start (flow hub feeds token) opened) now →
      now.consumer = some cursor → token.isCancelled now.state = true →
      2 * now.polls < looks → (cursor.poll now.state).cursor = none := by
  intro claim
  have told := turns_waiting.tail (turn_cancelled rfl 0)
  exact Option.some_ne_none _ (claim _ _ told rfl rfl (by decide))

end Deferred.Merge
