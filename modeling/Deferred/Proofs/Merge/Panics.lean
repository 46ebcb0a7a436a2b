import Deferred.Proofs.Merge.Annals
import Deferred.Proofs.Merge.Calm
import Deferred.Proofs.Merge.Departure

/-! Inputs that panic. The panic of an input comes neither to the consumer nor to another input, and
is logged by the supervisor, which does so when all inputs are over: each panic once, in the order
of the inputs. Unless its scope is cancelled, a merged run does not end before. -/

namespace Deferred.Merge

variable {σ α : Type}

/-! ### The turn of a panic -/

/-- The turn of an input, beside that in which it ends where it panics. It offers the same items and
leaves as much of the stream, and of a panic nothing is left but the payload that the hub notes. -/
structure Calms [Host σ] (place : Place σ (Hub α)) (index : Nat) (items : Items σ α) : Prop where
  offers : Merge.offers place index items.calmed = Merge.offers place index items
  remains : Merge.remains place items.calmed = (Merge.remains place items).map Cursor.calmed
  ends : breaks place items = none →
    (feedTask place index items.calmed).state = (feedTask place index items).state
  panics : ∀ payload, breaks place items = some payload → ∃ last,
    (feedTask place index items).state = place.modify (Hub.checkOut index (some payload)) last ∧
      (feedTask place index items.calmed).state = place.modify (Hub.checkOut index none) last

theorem calms [Host σ] (place : Place σ (Hub α)) (index : Nat) (items : Items σ α) :
    Calms place index items := by
  induction items with
  | item value rest release state ih =>
    rcases delivered : deliver place value state with ⟨taken, after⟩
    cases taken with
    | false =>
      constructor <;> simp [Items.calmed, Merge.offers, Merge.remains, breaks, feedTask,
        Items.toTask, Task.state, delivered]
    | true =>
      obtain ⟨offers, remains, ends, panics⟩ := ih after
      constructor
      · simp only [Items.calmed, Merge.offers, delivered]
        exact congrArg (_ :: ·) offers
      · simp only [Items.calmed, Merge.remains, delivered]
        exact remains
      · simp only [Items.calmed, breaks, feedTask, Items.toTask, delivered]
        exact ends
      · simp only [Items.calmed, breaks, feedTask, Items.toTask, delivered]
        exact panics
  | panic payload release state =>
    refine ⟨rfl, rfl, fun unbroken => ?_, fun other broke => ⟨release state, ?_, rfl⟩⟩
    · cases unbroken
    · obtain rfl := Option.some.inj broke
      rfl
  | ended | waiting =>
    refine ⟨rfl, rfl, fun _ => rfl, fun _ broke => ?_⟩
    cases broke
  | spawn child rest state ih =>
    obtain ⟨offers, remains, ends, panics⟩ := ih state
    exact ⟨offers, remains, ends, panics⟩

namespace Annals

/-- What there is to tell of the panics of inputs. -/
structure Reports [Host σ] (log : Log σ) (place : Place σ (Hub α))
    (cancellation : Cancellation σ) (feeds : List (Feed σ α)) (now : Annals σ α) : Prop where
  /-- No panic comes to the consumer. -/
  calm : ∀ cursor, now.consumer = some cursor → (cursor.poll now.state).panic? = none
  /-- An input panics once, and is over with it. -/
  once : (now.panics.map Prod.fst).Nodup
  gone : ∀ entry ∈ now.panics, now.streams[entry.1]? = some none
  /-- The task of an input logs nothing that the feed itself does not log. -/
  silent : ∀ (index : Nat) (cursor : Cursor σ α),
    (cursor.resume now.state).Keeps log.errors True now.state →
      log.errors (feedTask place index (cursor.resume now.state)).state = log.errors now.state
  waits : now.tasks[feeds.length]? ≠ some none → now.reports = []
  /-- When the supervisor is over, so are all inputs, and each panic has been logged. -/
  finished : now.tasks[feeds.length]? = some none →
    (∀ stream ∈ now.streams, stream = none) ∧
      now.reports = (List.range feeds.length).filterMap fun index =>
        (now.panics.lookup index).map Error.ofPanic
  /-- When all inputs are over, the supervisor waits at most for an allowance. -/
  due : (∀ stream ∈ now.streams, stream = none) → 0 < Host.allowance now.state →
    ∀ job, now.tasks[feeds.length]? = some (some job) → job.wait.opens now.state = true
  /-- Unless it is cancelled, the run ends after the supervisor. -/
  ended : ∀ cursor, now.consumer = some cursor → cancellation.isCancelled now.state = false →
    (cursor.poll now.state).cursor = none → now.tasks[feeds.length]? = some none

section reports

variable [Host σ] {log : Log σ} {place : Place σ (Hub α)} {cancellation : Cancellation σ}
  {feeds : List (Feed σ α)} {now : Annals σ α} {run : Run σ α}

/-- When all inputs are over, the supervisor has nobody to wait for. -/
theorem due_of_streams (reached : Reachable feeds run) {chronicle : Chronicle σ α}
    (shows : chronicle.toProgram.Shows place cancellation feeds run)
    (sound : chronicle.Sound place cancellation feeds)
    (ended : ∀ stream ∈ chronicle.streams, stream = none)
    (allowed : 0 < Host.allowance chronicle.state) {job : Job σ}
    (here : chronicle.tasks[feeds.length]? = some (some job)) :
    job.wait.opens chronicle.state = true := by
  have inputs := (shows.tasks.begun_of_task here).2
  have begun : 0 < chronicle.polls := Nat.pos_of_ne_zero fun none => by
    rw [(sound.fresh none).2.1] at here
    cases here
  have done : ∀ input ∈ run.inputs, input.stage.isDone = true := by
    intro input member
    obtain ⟨index, found⟩ := List.mem_iff_getElem?.mp member
    have bound := (List.getElem?_eq_some_iff.mp found).1
    rw [inputs, ← (sound.begun begun).1] at bound
    have stream := List.getElem?_eq_getElem bound
    rw [ended _ (List.mem_of_getElem? stream)] at stream
    obtain ⟨other, task, stands⟩ := shows.tasks.inputs index input found
    obtain rfl := Option.some.inj ((sound.jobs index _ stream).symm.trans task)
    generalize input.stage = stage at stands
    cases stands
    rfl
  have noted : (place.get chronicle.state).ends.length = feeds.length := by
    rw [← shows.hub, reached.lifecycle.2.ends, ← inputs]
    exact List.countP_eq_length.mpr done
  have supervisor := shows.tasks.supervisor
  rw [here] at supervisor
  generalize run.supervisor = stage at supervisor
  cases supervisor with
  | begins => rfl
  | waits sum =>
    refine decide_eq_true ?_
    omega
  | pays => exact decide_eq_true allowed

/-- The mark of the hub is set by the supervisor, in its last turn. -/
theorem over_of_closed (reached : Reachable feeds run) {program : Program σ α}
    (shows : program.Shows place cancellation feeds run)
    (closed : (place.get program.state).running = false) :
    program.tasks[feeds.length]? = some none := by
  rw [← shows.hub] at closed
  have finished := reached.lifecycle.2.closed closed
  have supervisor := shows.tasks.supervisor
  generalize run.supervisor = stage, program.tasks[feeds.length]? = task at supervisor finished ⊢
  cases supervisor with
  | done => rfl
  | unborn | begins | waits | pays => cases finished

theorem Turns.reports (apart : Apart place cancellation) (spared : log.Spared place)
    (spares : ∀ feed ∈ feeds, ∀ state, ItemsSpare place cancellation state (feed.flow state))
    {state : σ} (new : place.get state = .new)
    (flag : Flag.lowered.Becomes (cancellation.flag.get state))
    (turns : Turns log place cancellation feeds (.start (flow place feeds cancellation) state)
      now) : now.Reports log place cancellation feeds := by
  have told := Turns.chronicle turns
  have chronicle := Chronicle.Turns.sound apart spares new flag told
  have sound := Turns.sound apart spared spares new flag turns
  obtain ⟨run, reached, shows⟩ :=
    Program.exists_run apart spares new flag (Chronicle.Turns.program told)
  refine ⟨fun cursor here => ?_, sound.once, sound.gone,
    fun index cursor keeps => feedTask_keeps spared index keeps, sound.waits, fun ended => ?_,
    fun ended allowed job here => due_of_streams reached shows chronicle ended allowed here,
    fun cursor here lowered stops => ?_⟩
  · unfold Cursor.poll
    split
    · exact ((sound.keeps cursor here).resumes now.state).turn.1
    · rfl
  · refine ⟨chronicle.streams_over reached shows ended, ?_⟩
    rw [sound.finished ended, Ledger.panicsOf]
    simp only [sound.noted]
  · have drained := (chronicle.closes apart).drains cursor here lowered stops
    exact over_of_closed reached shows drained.1

end reports

end Annals

/-- Inputs that panic disturb nobody and are reported. A merged run of the feeds is, but for the
payloads and the record of them, one of the feeds that end where they would have panicked; what it
records are the panics, in the order of the inputs. And so it is in every program: no panic comes to
the consumer, no turn but its own touches an input, and the supervisor logs all panics, each once,
in the turn with which it is over, without which the run does not end unless it is cancelled. -/
theorem panics_isolated_and_reported [Host σ] {log : Log σ} {place : Place σ (Hub α)}
    {cancellation : Cancellation σ} {feeds : List (Feed σ α)} (apart : Apart place cancellation)
    (spared : log.Spared place)
    (spares : ∀ feed ∈ feeds, ∀ state, ItemsSpare place cancellation state (feed.flow state))
    {state : σ} (new : place.get state = .new)
    (flag : Flag.lowered.Becomes (cancellation.flag.get state)) :
    (∀ calm : Run σ α, Reachable (feeds.map Feed.calmed) calm ↔
      ∃ run, Reachable feeds run ∧ run.calmed = calm) ∧
    (∀ index items, Calms place index items) ∧
    (∀ (feed : Feed σ α) (items : List α), (∀ payload, ¬feed.calmed.Panics items payload) ∧
      (feed.calmed.Finishes items ↔
        feed.Finishes items ∨ ∃ payload, feed.Panics items payload)) ∧
    (∀ run, Reachable feeds run → run.Reports ∧ run.panics.Pairwise (·.1 < ·.1) ∧
      ∀ index error, (index, error) ∈ run.panics ↔ ∃ input payload,
        run.inputs[index]? = some input ∧ input.stage = .done (.panicked payload) ∧
          input.feed.Panics input.produced payload ∧ error = .ofPanic payload) ∧
    (∀ program, Program.Turns place cancellation (.start (flow place feeds cancellation) state)
      program → ∃ now : Annals σ α, now.toProgram = program ∧ Annals.Turns log place cancellation
        feeds (.start (flow place feeds cancellation) state) now) ∧
    ∀ now, Annals.Turns log place cancellation feeds
      (.start (flow place feeds cancellation) state) now →
        now.Reports log place cancellation feeds ∧
        now.Undisturbed place cancellation feeds ∧
        ∃ run, Reachable feeds run ∧ now.toProgram.Shows place cancellation feeds run := by
  refine ⟨fun calm => reachable_calmed, calms place, fun feed items =>
    ⟨fun payload => Feed.not_panics_calmed, Feed.finishes_calmed⟩, fun run reached =>
    ⟨reached.reports, run.panics_ordered, fun index error => reached.mem_panics⟩,
    fun program turns => ?_, fun now turns => ?_⟩
  · obtain ⟨chronicle, rfl, told⟩ := Chronicle.exists_turns apart spares new flag turns
    obtain ⟨now, rfl, annals⟩ := @Annals.exists_turns _ _ _ log place cancellation feeds
      (.start (flow place feeds cancellation) state) _ told
    exact ⟨now, rfl, annals⟩
  · have told := Annals.Turns.chronicle turns
    have sound := Chronicle.Turns.sound apart spares new flag told
    exact ⟨Annals.Turns.reports apart spared spares new flag turns,
      fun index cursor next there turn => turn.undisturbed sound there,
      Program.exists_run apart spares new flag (Chronicle.Turns.program told)⟩

/-! ### An input that panics beside one that does not -/

/-- What was recorded in a notebook. -/
def logbook (κ : Type) : Log (Notebook κ) where
  errors := Notebook.log
  errors_record := Notebook.log_record
  errors_trace := Notebook.log_trace
  errors_allow := Notebook.log_allow

namespace Desk

def mixed : List (Feed Desk Nat) := [explosive, .ofList [7]]

theorem spares_mixed :
    ∀ feed ∈ mixed, ∀ state, ItemsSpare hub token state (feed.flow state) := by
  intro feed member state
  rcases List.mem_cons.mp member with rfl | member
  · exact .panic (.refl state) .refl
  · rw [List.mem_singleton.mp member]
    exact ItemsSpare.ofList hub token [7] state

end Desk

open Desk in
/-- The panic is logged, and the item of the other input is yielded. -/
theorem explosion_reported :
    ∃ now : Annals Desk Nat, Annals.Turns (logbook _) hub token mixed
      (.start (flow hub mixed token) opened) now ∧ now.panics = [(0, .fixed "boom")] ∧
        now.yielded = [7] ∧ now.consumer = none ∧ now.reports = [.panicked "boom"] := by
  have polled := (@Relation.ReflTransGen.refl _ (Annals.Turn (logbook _) hub token mixed)
    (.start (flow hub mixed token) opened)).tail (.consumer rfl rfl)
  have panicked := polled.tail (@Annals.Turn.input _ _ _ _ _ _ _ _ 0 _ rfl rfl rfl)
  have pushed := panicked.tail (@Annals.Turn.input _ _ _ _ _ _ _ _ 1 _ rfl rfl rfl)
  have reported := pushed.tail (.supervisor rfl rfl)
  have yielded := reported.tail (.consumer rfl rfl)
  have told := yielded.tail (.consumer rfl rfl)
  obtain ⟨-, -, -, -, -, annals⟩ :=
    @panics_isolated_and_reported _ _ _ (logbook _) hub token mixed apart (fun _ _ => rfl)
      spares_mixed opened rfl .refl
  obtain ⟨⟨-, -, -, -, -, finished, -, -⟩, -⟩ := annals _ told
  exact ⟨_, told, rfl, rfl, rfl, (finished rfl).2⟩

end Deferred.Merge
