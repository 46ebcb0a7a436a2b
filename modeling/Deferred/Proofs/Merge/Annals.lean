import Deferred.Proofs.Merge.Chronicle
import Deferred.Proofs.Merge.Logs
import Deferred.Proofs.Merge.Reports

/-! A chronicle that also tells the panics of the inputs, and what is logged in the turns of the
consumer and of the supervisor. An input panics in a turn of its own and is over with it, whatever
the others do. The supervisor logs in its last turn, when all inputs are over: each panic then, in
the order of the inputs. -/

namespace Deferred.Merge

variable {σ α : Type}

/-! ### How an input ends -/

section ends

variable [Host σ]

/-- The payload of a panic with which the turn of an input ends. -/
def breaks (place : Place σ (Hub α)) : Items σ α → Option Payload
  | .item value rest _ state =>
      match deliver place value state with
      | (true, after) => breaks place (rest after)
      | (false, _) => none
  | .ended _ => none
  | .panic payload _ _ => some payload
  | .waiting _ _ _ => none
  | .spawn _ rest state => breaks place (rest state)

/-- What a turn of an input adds to the ends that the hub notes. -/
def endOf (place : Place σ (Hub α)) (index : Nat) (items : Items σ α) :
    List (Nat × Option Payload) :=
  match remains place items with
  | some _ => []
  | none => [(index, breaks place items)]

/-- An input that goes on has not panicked. -/
theorem breaks_of_remains {place : Place σ (Hub α)} {items : Items σ α} {cursor : Cursor σ α}
    (left : remains place items = some cursor) : breaks place items = none := by
  induction items with
  | item value rest release state ih =>
    simp only [remains, breaks] at left ⊢
    rcases delivered : deliver place value state with ⟨taken, after⟩
    rw [delivered] at left
    cases taken with
    | false => rfl
    | true => exact ih after left
  | ended | panic => cases left
  | waiting => rfl
  | spawn child rest state ih => exact ih state left

theorem lookup_endOf (place : Place σ (Hub α)) (index : Nat) (items : Items σ α) (other : Nat) :
    ((endOf place index items).lookup other).join =
      ((breaks place items).toList.map (index, ·)).lookup other := by
  unfold endOf
  rcases left : remains place items with _ | cursor
  · cases breaks place items <;> cases same : other == index <;> simp [List.lookup_cons, same]
  · rw [breaks_of_remains left]
    rfl

theorem lookup_endOf_of_ne (place : Place σ (Hub α)) {index other : Nat} (apart : other ≠ index)
    (items : Items σ α) : (endOf place index items).lookup other = none := by
  have missed : (other == index) = false := beq_false_of_ne apart
  unfold endOf
  cases remains place items <;> simp [List.lookup_cons, missed]

/-- A turn of an input notes how it ends, if it does. -/
theorem ItemsSpare.ends {place : Place σ (Hub α)} {cancellation : Cancellation σ}
    (apart : Apart place cancellation) (index : Nat) {start : σ} {items : Items σ α}
    (spares : ItemsSpare place cancellation start items) :
    (place.get (feedTask place index items).state).ends =
      (place.get start).ends ++ endOf place index items := by
  have noted (payload : Option Payload) {before after : σ}
      (spares : Spares place cancellation before after) :
      (place.get (place.modify (Hub.checkOut index payload) after)).ends =
        (place.get before).ends ++ [(index, payload)] := by
    rw [(apart.modify _ after).1, ← spares.hub]
    rfl
  induction spares with
  | @item start value rest release state spares releases _ ih =>
    simp only [feedTask, Items.toTask, endOf, remains, breaks]
    rw [deliver_eq]
    by_cases attached : (place.get state).attached = true
    · rw [if_pos attached, ← spares.hub]
      have later := ih (place.set ((place.get state).enqueue value).notify state)
      rw [place.get_set] at later
      exact later
    · rw [if_neg attached]
      have stops : Spares place cancellation state
          (Host.trace .inputStopped (place.set (place.get state) state)) :=
        ⟨(apart.hub_trace _ _).trans (place.get_set _ _),
          (apart.flag_trace _ _).trans (apart.flag_set _ state) ▸ .refl⟩
      exact noted none ((spares.trans stops).trans (releases _))
  | ended spares => exact noted none spares
  | @panic _ payload _ _ spares releases => exact noted (some payload) (spares.trans (releases _))
  | waiting spares =>
    exact (congrArg Hub.ends spares.hub).trans (List.append_nil _).symm
  | @spawn _ child rest state spares _ ih =>
    rw [← spares.hub]
    exact ih state

end ends

/-! ### Turns -/

/-- The panics of the inputs as they came, and what was logged in the turns of the consumer and of
the supervisor. -/
structure Annals (σ α : Type) extends Chronicle σ α where
  panics : List (Nat × Payload)
  reports : List Error

namespace Annals

def start (flow : Flow σ α) (state : σ) : Annals σ α :=
  { Chronicle.start flow state with panics := [], reports := [] }

/-- The turns of a chronicle. -/
inductive Turn [Host σ] (log : Log σ) (place : Place σ (Hub α)) (cancellation : Cancellation σ)
    (feeds : List (Feed σ α)) (now : Annals σ α) : Annals σ α → Prop where
  | consumer {cursor} (here : now.consumer = some cursor)
      (opens : cursor.wait.opens now.state = true) :
      Turn log place cancellation feeds now {
        state := (cursor.resume now.state).state
        consumer := (cursor.resume now.state).cursor
        tasks := now.tasks ++
          (cursor.resume now.state).children.map fun child => some ⟨.passed, child⟩
        yielded := now.yielded ++ (cursor.resume now.state).yields
        streams :=
          if now.polls = 0 then feeds.map fun feed => some feed.flow.cursor else now.streams
        polls := now.polls + 1
        offers := now.offers
        panics := now.panics
        reports := now.reports ++ log.added now.state (cursor.resume now.state).state }
  | input {index cursor} (here : now.streams[index]? = some (some cursor))
      (task : now.tasks[index]? = some (some (inputJob place index cursor)))
      (opens : cursor.wait.opens now.state = true) :
      Turn log place cancellation feeds now { now with
        state := (feedTask place index (cursor.resume now.state)).state
        tasks := now.tasks.set index (feedTask place index (cursor.resume now.state)).job
        streams := now.streams.set index (remains place (cursor.resume now.state))
        offers := now.offers ++ Merge.offers place index (cursor.resume now.state)
        panics := now.panics ++
          (breaks place (cursor.resume now.state)).toList.map (index, ·) }
  | supervisor {job} (here : now.tasks[feeds.length]? = some (some job))
      (opens : job.wait.opens now.state = true) :
      Turn log place cancellation feeds now { now with
        state := (job.resume now.state).state
        tasks := now.tasks.set feeds.length (job.resume now.state).job
        reports := now.reports ++ log.added now.state (job.resume now.state).state }
  | drop {cursor} (here : now.consumer = some cursor)
      (may : ∃ state, cursor.wait.opens state = true) :
      Turn log place cancellation feeds now { now with
        state := cursor.wait.release now.state
        consumer := none
        reports := now.reports ++ log.added now.state (cursor.wait.release now.state) }
  | other {state} (spares : Spares place cancellation now.state state) :
      Turn log place cancellation feeds now { now with state }

abbrev Turns [Host σ] (log : Log σ) (place : Place σ (Hub α)) (cancellation : Cancellation σ)
    (feeds : List (Feed σ α)) : Annals σ α → Annals σ α → Prop :=
  Relation.ReflTransGen (Turn log place cancellation feeds)

section erase

variable [Host σ] {log : Log σ} {place : Place σ (Hub α)} {cancellation : Cancellation σ}
  {feeds : List (Feed σ α)} {now next : Annals σ α}

theorem Turn.chronicle (turn : Turn log place cancellation feeds now next) :
    Chronicle.Turn place cancellation feeds now.toChronicle next.toChronicle := by
  cases turn with
  | consumer here opens => exact .consumer here opens
  | input here task opens => exact .input here task opens
  | supervisor here opens => exact .supervisor here opens
  | drop here may => exact .drop here may
  | other spares => exact .other spares

theorem Turns.chronicle (turns : Turns log place cancellation feeds now next) :
    Chronicle.Turns place cancellation feeds now.toChronicle next.toChronicle :=
  turns.lift toChronicle fun _ _ => Turn.chronicle

/-- Each turn of a chronicle continues its annals. -/
theorem exists_turn {later : Chronicle σ α}
    (turn : Chronicle.Turn place cancellation feeds now.toChronicle later) :
    ∃ next : Annals σ α,
      next.toChronicle = later ∧ Turn log place cancellation feeds now next := by
  cases turn with
  | consumer here opens => exact ⟨_, rfl, .consumer here opens⟩
  | input here task opens => exact ⟨_, rfl, .input here task opens⟩
  | supervisor here opens => exact ⟨_, rfl, .supervisor here opens⟩
  | drop here may => exact ⟨_, rfl, .drop here may⟩
  | other spares => exact ⟨_, rfl, .other spares⟩

theorem exists_turns {later : Chronicle σ α}
    (turns : Chronicle.Turns place cancellation feeds now.toChronicle later) :
    ∃ next : Annals σ α,
      next.toChronicle = later ∧ Turns log place cancellation feeds now next := by
  induction turns with
  | refl => exact ⟨now, rfl, .refl⟩
  | tail _ turn ih =>
    obtain ⟨between, rfl, earlier⟩ := ih
    obtain ⟨next, same, turn⟩ := exists_turn turn
    exact ⟨next, same, earlier.tail turn⟩

end erase

/-! ### What holds throughout -/

/-- What the consumer leaves alone: what was logged, and which inputs have ended how. -/
def kept [Host σ] (log : Log σ) (place : Place σ (Hub α)) (state : σ) :
    List Error × List (Nat × Option Payload) :=
  (log.errors state, (place.get state).ends)

/-- What was reported is told by whether the supervisor is over. -/
structure Sound [Host σ] (log : Log σ) (place : Place σ (Hub α)) (feeds : List (Feed σ α))
    (now : Annals σ α) : Prop where
  keeps : ∀ cursor, now.consumer = some cursor → cursor.Keeps (kept log place) False
  noted : ∀ index, now.panics.lookup index = (place.get now.state).panicOf index
  gone : ∀ entry ∈ now.panics, now.streams[entry.1]? = some none
  once : (now.panics.map Prod.fst).Nodup
  waits : now.tasks[feeds.length]? ≠ some none → now.reports = []
  finished : now.tasks[feeds.length]? = some none →
    now.reports = Ledger.panicsOf (place.get now.state) feeds.length

theorem panicsOf_of_ends {hub after : Hub α} (ends : after.ends = hub.ends) (inputs : Nat) :
    Ledger.panicsOf after inputs = Ledger.panicsOf hub inputs := by
  rw [Ledger.panicsOf, funext (panicOf_of_ends ends), Ledger.panicsOf]

theorem tasks_of_spawned {tasks : List (Option (Job σ))} (children : List (σ → Task σ))
    (index : Nat) :
    (tasks ++ children.map fun child => some ⟨.passed, child⟩)[index]? = some none ↔
      tasks[index]? = some none := by
  rw [List.getElem?_append]
  split
  next => rfl
  next beyond =>
    rw [List.getElem?_eq_none (Nat.le_of_not_lt beyond)]
    simp

section sound

variable [Host σ] {log : Log σ} {place : Place σ (Hub α)} {cancellation : Cancellation σ}
  {feeds : List (Feed σ α)} {now next : Annals σ α}

theorem unheld (apart : Apart place cancellation) (spared : log.Spared place) :
    Unheld place (kept log place) where
  set hub state ends := by
    unfold kept
    rw [spared, place.get_set, ends]
  trace event state := by
    unfold kept
    rw [log.errors_trace, apart.hub_trace]
  allow count state := by
    unfold kept
    rw [log.errors_allow, apart.hub_allow]

theorem Sound.start (apart : Apart place cancellation) (spared : log.Spared place) {state : σ}
    (new : place.get state = .new) :
    Sound log place feeds (start (flow place feeds cancellation) state) where
  keeps cursor here := by
    obtain rfl := Option.some.inj here
    exact ⟨fun _ => rfl, flow_keeps (unheld apart spared) feeds⟩
  noted index := by
    change none = (place.get state).panicOf index
    rw [new]
    rfl
  gone := nofun
  once := .nil
  waits _ := rfl
  finished := nofun

/-- An input whose task goes on has not ended. -/
theorem lookup_of_task {program : Program σ α} {run : Run σ α} (reached : Reachable feeds run)
    (shows : program.Shows place cancellation feeds run) {index : Nat} {job : Job σ}
    (task : program.tasks[index]? = some (some job)) :
    (place.get program.state).ends.lookup index = none := by
  rw [← shows.hub, reached.notes index]
  rcases found : run.inputs[index]? with _ | input
  · rfl
  · obtain ⟨other, there, stands⟩ := shows.tasks.inputs index input found
    obtain rfl := Option.some.inj (there.symm.trans task)
    generalize stage : input.stage = stage at stands
    cases stands with
    | pulls => rw [Option.bind_some, stage]; rfl

/-- A turn in which no input ends and nothing is logged. -/
theorem Sound.still {state : σ} {consumer : Option (Cursor σ α)} {tasks : List (Option (Job σ))}
    {yielded : List α} {streams : List (Option (Cursor σ α))} {polls : Nat}
    (sound : now.Sound log place feeds)
    (keeps : ∀ cursor, consumer = some cursor → cursor.Keeps (kept log place) False)
    (ends : (place.get state).ends = (place.get now.state).ends)
    (gone : ∀ index : Nat, now.streams[index]? = some none → streams[index]? = some none)
    (same : tasks[feeds.length]? = some none ↔ now.tasks[feeds.length]? = some none) :
    Sound log place feeds { now with state, consumer, tasks, yielded, streams, polls } where
  keeps := keeps
  noted index := by
    rw [sound.noted, panicOf_of_ends ends]
  gone entry member := gone entry.1 (sound.gone entry member)
  once := sound.once
  waits goesOn := sound.waits fun finished => goesOn (same.mpr finished)
  finished ended := by
    rw [sound.finished (same.mp ended), panicsOf_of_ends ends]

theorem Sound.consumer (sound : now.Sound log place feeds) {cursor : Cursor σ α}
    (here : now.consumer = some cursor) {yielded : List α}
    {streams : List (Option (Cursor σ α))} {polls : Nat}
    (gone : ∀ index : Nat, now.streams[index]? = some none → streams[index]? = some none) :
    Sound log place feeds {
      state := (cursor.resume now.state).state
      consumer := (cursor.resume now.state).cursor
      tasks := now.tasks ++
        (cursor.resume now.state).children.map fun child => some ⟨.passed, child⟩
      yielded, streams, polls
      offers := now.offers
      panics := now.panics
      reports := now.reports ++ log.added now.state (cursor.resume now.state).state } := by
  obtain ⟨-, same, keeps⟩ := ((sound.keeps cursor here).resumes now.state).turn
  obtain ⟨errors, ends⟩ := Prod.mk.inj same
  rw [log.added_of_same errors, List.append_nil]
  exact sound.still keeps ends gone (tasks_of_spawned _ _)

theorem Sound.input (apart : Apart place cancellation)
    (chronicle : now.toChronicle.Sound place cancellation feeds) {run : Run σ α}
    (reached : Reachable feeds run) (shows : now.toProgram.Shows place cancellation feeds run)
    (sound : now.Sound log place feeds) {index : Nat} {cursor : Cursor σ α}
    (here : now.streams[index]? = some (some cursor)) :
    Sound log place feeds { now with
      state := (feedTask place index (cursor.resume now.state)).state
      tasks := now.tasks.set index (feedTask place index (cursor.resume now.state)).job
      streams := now.streams.set index (remains place (cursor.resume now.state))
      offers := now.offers ++ Merge.offers place index (cursor.resume now.state)
      panics := now.panics ++
        (breaks place (cursor.resume now.state)).toList.map (index, ·) } := by
  have unnoted := lookup_of_task reached shows (chronicle.jobs index _ here)
  have ends := (chronicle.spares index cursor here now.state).ends apart index
  have bound := (List.getElem?_eq_some_iff.mp here).1
  have below := bound
  rw [(chronicle.begun (chronicle.begun_of_stream here)).1] at below
  have others : ∀ entry ∈ now.panics, index ≠ entry.1 := by
    rintro entry member rfl
    rw [sound.gone entry member] at here
    cases here
  have goesOn : now.tasks[feeds.length]? ≠ some none := by
    intro finished
    cases chronicle.streams_over reached shows finished _ (List.mem_of_getElem? here)
  have stays : (now.tasks.set index (feedTask place index (cursor.resume now.state)).job)[
      feeds.length]? = now.tasks[feeds.length]? := List.getElem?_set_ne (Nat.ne_of_lt below)
  refine ⟨sound.keeps, fun other => ?_, fun entry member => ?_, ?_, fun _ => sound.waits goesOn,
    fun finished => absurd (stays ▸ finished) goesOn⟩
  · dsimp only
    rw [Hub.panicOf, ends, List.lookup_append, List.lookup_append, ← lookup_endOf, sound.noted,
      Hub.panicOf]
    by_cases itself : other = index
    · rw [itself, unnoted]
      rfl
    · rw [lookup_endOf_of_ne place itself]
      simp
  · rcases List.mem_append.mp member with earlier | broke
    · exact (List.getElem?_set_ne (others entry earlier)).trans (sound.gone entry earlier)
    · obtain ⟨payload, broke, rfl⟩ := List.mem_map.mp broke
      have stopped : remains place (cursor.resume now.state) = none := by
        refine Option.eq_none_iff_forall_ne_some.mpr fun left stays => ?_
        rw [breaks_of_remains stays] at broke
        cases broke
      exact stopped ▸ List.getElem?_set_self bound
  · rw [List.map_append]
    refine List.nodup_append.mpr ⟨sound.once, ?_, ?_⟩
    · cases breaks place (cursor.resume now.state) <;> simp
    · intro earlier known later broke
      obtain ⟨entry, member, rfl⟩ := List.mem_map.mp known
      obtain ⟨added, there, rfl⟩ := List.mem_map.mp broke
      obtain ⟨payload, -, rfl⟩ := List.mem_map.mp there
      exact (others entry member).symm

/-- The supervisor logs in its last turn, and then what the hub has of the panics. -/
theorem Sound.supervisor (apart : Apart place cancellation) (spared : log.Spared place)
    {run : Run σ α} (shows : now.toProgram.Shows place cancellation feeds run)
    (sound : now.Sound log place feeds) {job : Job σ}
    (here : now.tasks[feeds.length]? = some (some job))
    (opens : job.wait.opens now.state = true) :
    Sound log place feeds { now with
      state := (job.resume now.state).state
      tasks := now.tasks.set feeds.length (job.resume now.state).job
      reports := now.reports ++ log.added now.state (job.resume now.state).state } := by
  have supervisor := shows.tasks.supervisor
  rw [here, shows.hub] at supervisor
  obtain ⟨ends, waits, finished⟩ := supervisor.logs apart spared opens
  have itself : (now.tasks.set feeds.length (job.resume now.state).job)[feeds.length]? =
      some (job.resume now.state).job :=
    List.getElem?_set_self (List.getElem?_eq_some_iff.mp here).1
  have nothing : now.reports = [] := sound.waits (by rw [here]; nofun)
  refine ⟨sound.keeps, fun index => ?_, sound.gone, sound.once, fun goesOn => ?_, fun ended => ?_⟩
  · rw [sound.noted, panicOf_of_ends ends]
  · rcases left : (job.resume now.state).job with _ | next
    · exact absurd (itself.trans (congrArg some left)) goesOn
    · dsimp only
      rw [nothing, log.added_of_same (waits next left)]
      rfl
  · have last := Option.some.inj (itself.symm.trans ended)
    dsimp only
    rw [nothing, log.added_of_append (finished last), List.nil_append, panicsOf_of_ends ends]

theorem Turn.sound (apart : Apart place cancellation) (spared : log.Spared place)
    (chronicle : now.toChronicle.Sound place cancellation feeds) {run : Run σ α}
    (reached : Reachable feeds run) (shows : now.toProgram.Shows place cancellation feeds run)
    (turn : Turn log place cancellation feeds now next) (sound : now.Sound log place feeds) :
    next.Sound log place feeds := by
  cases turn with
  | consumer here =>
    refine sound.consumer here fun index gone => ?_
    rw [if_neg (Nat.ne_of_gt (chronicle.begun_of_stream gone))]
    exact gone
  | input here => exact sound.input apart chronicle reached shows here
  | supervisor here opens => exact sound.supervisor apart spared shows here opens
  | @drop cursor here =>
    obtain ⟨errors, ends⟩ := Prod.mk.inj ((sound.keeps cursor here).releases now.state)
    rw [log.added_of_same errors, List.append_nil]
    exact sound.still nofun ends (fun _ => id) Iff.rfl
  | other spares =>
    exact sound.still sound.keeps (congrArg Hub.ends spares.hub) (fun _ => id) Iff.rfl

theorem Turns.sound (apart : Apart place cancellation) (spared : log.Spared place)
    (spares : ∀ feed ∈ feeds, ∀ state, ItemsSpare place cancellation state (feed.flow state))
    {state : σ} (new : place.get state = .new)
    (flag : Flag.lowered.Becomes (cancellation.flag.get state))
    (turns : Turns log place cancellation feeds (.start (flow place feeds cancellation) state)
      now) : now.Sound log place feeds := by
  induction turns with
  | refl => exact .start apart spared new
  | tail earlier turn ih =>
    have told := Turns.chronicle earlier
    obtain ⟨run, reached, shows⟩ :=
      Program.exists_run apart spares new flag (Chronicle.Turns.program told)
    have sound := Chronicle.Turns.sound apart spares new flag told
    exact turn.sound apart spared sound reached shows ih

end sound

end Annals

end Deferred.Merge
