import Deferred.Action

/-! Complete runs of a computation. Between two polls anything may happen, so each resumption has
a state of its own, and the list of these states is all that a run takes from outside. A run of two
computations in sequence is a run of the first and then one of the second. -/

namespace Deferred

variable {σ α β : Type}

namespace Poll

/-- Resumed in these states in turn, the computation ends with this answer in this state. A
computation that spawns a task goes on in the same poll. -/
inductive Answers : Poll σ α → List σ → α → σ → Prop where
  | ready {value state} : Answers (.ready value state) [] value state
  | resume {wait resume before state inputs value last} (opens : wait.opens state = true)
      (rest : Answers (resume state) inputs value last) :
      Answers (.waiting wait resume before) (state :: inputs) value last
  | spawn {child next before inputs value last}
      (rest : Answers (next before) inputs value last) :
      Answers (.spawn child next before) inputs value last

@[simp] theorem answers_ready_iff {answer value : α} {state last : σ} {inputs : List σ} :
    (ready answer state).Answers inputs value last ↔
      inputs = [] ∧ value = answer ∧ last = state := by
  constructor
  · rintro ⟨⟩
    exact ⟨rfl, rfl, rfl⟩
  · rintro ⟨rfl, rfl, rfl⟩
    exact .ready

theorem answers_waiting_iff {wait : Wait σ} {next : σ → Poll σ α} {before last : σ}
    {inputs : List σ} {value : α} :
    (waiting wait next before).Answers inputs value last ↔
      ∃ state later, inputs = state :: later ∧ wait.opens state = true ∧
        (next state).Answers later value last := by
  constructor
  · rintro ⟨⟩
    exact ⟨_, _, rfl, ‹_›, ‹_›⟩
  · rintro ⟨state, later, rfl, opens, rest⟩
    exact .resume opens rest

/-- Two computations in sequence: the second begins where the first has ended, in the same poll. -/
theorem answers_bind_iff {poll : Poll σ α} {next : α → σ → Poll σ β} {inputs : List σ}
    {value : β} {last : σ} :
    (poll.bind next).Answers inputs value last ↔
      ∃ first later answer middle, inputs = first ++ later ∧
        poll.Answers first answer middle ∧ (next answer middle).Answers later value last := by
  constructor
  · intro run
    induction poll generalizing inputs with
    | ready answer state => exact ⟨[], inputs, answer, state, rfl, .ready, run⟩
    | panic payload state => cases run
    | waiting wait resume state ih =>
      cases run with
      | resume opens rest =>
        obtain ⟨first, later, answer, middle, rfl, begins, ends⟩ := ih _ rest
        exact ⟨_ :: first, later, answer, middle, rfl, .resume opens begins, ends⟩
    | spawn child rest state ih =>
      cases run with
      | spawn goes =>
        obtain ⟨first, later, answer, middle, rfl, begins, ends⟩ := ih _ goes
        exact ⟨first, later, answer, middle, rfl, .spawn begins, ends⟩
  · rintro ⟨first, later, answer, middle, rfl, begins, ends⟩
    induction begins with
    | ready => exact ends
    | resume opens _ ih => exact .resume opens (ih ends)
    | spawn _ ih => exact .spawn (ih ends)

/-- The second computation ends in the poll in which the first one does. -/
theorem Answers.bind_at_once {poll : Poll σ α} {next : α → σ → Poll σ β} {inputs : List σ}
    {answer : α} {middle : σ} {value : β} {last : σ} (begins : poll.Answers inputs answer middle)
    (ends : (next answer middle).Answers [] value last) :
    (poll.bind next).Answers inputs value last :=
  answers_bind_iff.mpr ⟨inputs, [], answer, middle, (List.append_nil inputs).symm, begins, ends⟩

/-- Resumed in these states in turn, the computation ends with this panic in this state. -/
inductive Panics : Poll σ α → List σ → Payload → σ → Prop where
  | panic {payload state} : Panics (.panic payload state) [] payload state
  | resume {wait resume before state inputs payload last} (opens : wait.opens state = true)
      (rest : Panics (resume state) inputs payload last) :
      Panics (.waiting wait resume before) (state :: inputs) payload last
  | spawn {child next before inputs payload last}
      (rest : Panics (next before) inputs payload last) :
      Panics (.spawn child next before) inputs payload last

theorem panics_waiting_iff {wait : Wait σ} {next : σ → Poll σ α} {before last : σ}
    {inputs : List σ} {payload : Payload} :
    (waiting wait next before).Panics inputs payload last ↔
      ∃ state later, inputs = state :: later ∧ wait.opens state = true ∧
        (next state).Panics later payload last := by
  constructor
  · rintro ⟨⟩
    exact ⟨_, _, rfl, ‹_›, ‹_›⟩
  · rintro ⟨state, later, rfl, opens, rest⟩
    exact .resume opens rest

/-- Two computations in sequence panic in the first one or, when that has ended, in the second. -/
theorem panics_bind_iff {poll : Poll σ α} {next : α → σ → Poll σ β} {inputs : List σ}
    {payload : Payload} {last : σ} :
    (poll.bind next).Panics inputs payload last ↔
      poll.Panics inputs payload last ∨
      ∃ first later answer middle, inputs = first ++ later ∧
        poll.Answers first answer middle ∧ (next answer middle).Panics later payload last := by
  constructor
  · intro run
    induction poll generalizing inputs with
    | ready answer state => exact .inr ⟨[], inputs, answer, state, rfl, .ready, run⟩
    | panic payload state =>
      cases run
      exact .inl .panic
    | waiting wait resume state ih =>
      obtain ⟨woken, later, rfl, opens, rest⟩ := panics_waiting_iff.mp run
      rcases ih woken rest with panics | ⟨first, later, answer, middle, rfl, begins, ends⟩
      · exact .inl (.resume opens panics)
      · exact .inr ⟨woken :: first, later, answer, middle, rfl, .resume opens begins, ends⟩
    | spawn child rest state ih =>
      cases run with
      | spawn goes =>
        rcases ih state goes with panics | ⟨first, later, answer, middle, rfl, begins, ends⟩
        · exact .inl (.spawn panics)
        · exact .inr ⟨first, later, answer, middle, rfl, .spawn begins, ends⟩
  · rintro (panics | ⟨first, later, answer, middle, rfl, begins, ends⟩)
    · induction panics with
      | panic => exact .panic
      | resume opens _ ih => exact .resume opens ih
      | spawn _ ih => exact .spawn ih
    · induction begins with
      | ready => exact ends
      | resume opens _ ih => exact .resume opens (ih ends)
      | spawn _ ih => exact .spawn (ih ends)

/-- The second computation panics in the poll in which the first one ends. -/
theorem Answers.bind_panics_at_once {poll : Poll σ α} {next : α → σ → Poll σ β} {inputs : List σ}
    {answer : α} {middle : σ} {payload : Payload} {last : σ}
    (begins : poll.Answers inputs answer middle)
    (panics : (next answer middle).Panics [] payload last) :
    (poll.bind next).Panics inputs payload last :=
  panics_bind_iff.mpr
    (.inr ⟨inputs, [], answer, middle, (List.append_nil inputs).symm, begins, panics⟩)

theorem Answers.contained [Host σ] {poll : Poll σ α} {inputs : List σ} {value : α} {last : σ}
    (answers : poll.Answers inputs value last) :
    poll.contained.Answers inputs (.ok value) last := by
  induction answers with
  | ready => exact .ready
  | resume opens _ ih => exact .resume opens ih
  | spawn _ ih => exact .spawn ih

theorem Panics.contained [Host σ] {poll : Poll σ α} {inputs : List σ} {payload : Payload} {last : σ}
    (panics : poll.Panics inputs payload last) :
    poll.contained.Answers inputs (.error (.ofPanic payload))
      (Host.record (.ofPanic payload) last) := by
  induction panics with
  | panic => exact .ready
  | resume opens _ ih => exact .resume opens ih
  | spawn _ ih => exact .spawn ih

/-- A contained computation ends as the computation does: a value stays what it is, and a panic
becomes an error that is recorded there and then. -/
theorem contained_answers_iff [Host σ] {poll : Poll σ α} {inputs : List σ}
    {answer : Except Error α} {last : σ} :
    poll.contained.Answers inputs answer last ↔
      (∃ value, answer = .ok value ∧ poll.Answers inputs value last) ∨
      ∃ payload before, answer = .error (.ofPanic payload) ∧
        last = Host.record (.ofPanic payload) before ∧ poll.Panics inputs payload before := by
  constructor
  · intro run
    induction poll generalizing inputs with
    | ready value state =>
      obtain ⟨rfl, rfl, rfl⟩ := answers_ready_iff.mp run
      exact .inl ⟨value, rfl, .ready⟩
    | panic payload state =>
      obtain ⟨rfl, rfl, rfl⟩ := answers_ready_iff.mp run
      exact .inr ⟨payload, state, rfl, rfl, .panic⟩
    | waiting wait resume state ih =>
      obtain ⟨woken, later, rfl, opens, rest⟩ := answers_waiting_iff.mp run
      rcases ih woken rest with ⟨value, rfl, goesOn⟩ | ⟨payload, before, rfl, rfl, goesOn⟩
      · exact .inl ⟨value, rfl, .resume opens goesOn⟩
      · exact .inr ⟨payload, before, rfl, rfl, .resume opens goesOn⟩
    | spawn child next state ih =>
      cases run with
      | spawn rest =>
        rcases ih state rest with ⟨value, rfl, goesOn⟩ | ⟨payload, before, rfl, rfl, goesOn⟩
        · exact .inl ⟨value, rfl, .spawn goesOn⟩
        · exact .inr ⟨payload, before, rfl, rfl, .spawn goesOn⟩
  · rintro (⟨value, rfl, answers⟩ | ⟨payload, before, rfl, rfl, panics⟩)
    · exact answers.contained
    · exact panics.contained

/-- Resumed in these states in turn, the computation comes to this end. -/
def EndsWith (poll : Poll σ α) (inputs : List σ) : Except Payload α → σ → Prop
  | .ok value, last => poll.Answers inputs value last
  | .error payload, last => poll.Panics inputs payload last

section
variable {poll : Poll σ α} {inputs : List σ} {before last : σ} {ending : Except Payload α}

theorem endsWith_ok_iff {value : α} :
    poll.EndsWith inputs (.ok value) last ↔ poll.Answers inputs value last := Iff.rfl

theorem endsWith_error_iff {payload : Payload} :
    poll.EndsWith inputs (.error payload) last ↔ poll.Panics inputs payload last := Iff.rfl

theorem endsWith_waiting_iff {wait : Wait σ} {next : σ → Poll σ α} :
    (waiting wait next before).EndsWith inputs ending last ↔
      ∃ state later, inputs = state :: later ∧ wait.opens state = true ∧
        (next state).EndsWith later ending last := by
  cases ending with
  | ok => exact answers_waiting_iff
  | error => exact panics_waiting_iff

theorem endsWith_spawn_iff {child : σ → Task σ} {rest : σ → Poll σ α} :
    (spawn child rest before).EndsWith inputs ending last ↔
      (rest before).EndsWith inputs ending last := by
  cases ending with
  | ok => exact ⟨fun | .spawn rest => rest, .spawn⟩
  | error => exact ⟨fun | .spawn rest => rest, .spawn⟩

/-- Two computations in sequence end with a panic of the first one or as the second one ends. -/
theorem endsWith_bind_iff {next : α → σ → Poll σ β} {ending : Except Payload β} :
    (poll.bind next).EndsWith inputs ending last ↔
      (∃ payload, ending = .error payload ∧ poll.Panics inputs payload last) ∨
      ∃ first later answer middle, inputs = first ++ later ∧
        poll.Answers first answer middle ∧ (next answer middle).EndsWith later ending last := by
  cases ending with
  | ok value =>
    refine answers_bind_iff.trans ⟨.inr, ?_⟩
    rintro (⟨payload, ⟨⟩, -⟩ | runs)
    exact runs
  | error payload =>
    refine panics_bind_iff.trans (or_congr_left ⟨fun panics => ⟨payload, rfl, panics⟩, ?_⟩)
    rintro ⟨_, ⟨⟩, panics⟩
    exact panics

/-- The second computation ends as it would by itself, after a first one that cannot panic. -/
theorem endsWith_bind_iff_of_not_panics {next : α → σ → Poll σ β} {ending : Except Payload β}
    (never : ∀ payload, ¬poll.Panics inputs payload last) :
    (poll.bind next).EndsWith inputs ending last ↔
      ∃ first later answer middle, inputs = first ++ later ∧
        poll.Answers first answer middle ∧ (next answer middle).EndsWith later ending last := by
  refine endsWith_bind_iff.trans ⟨?_, .inr⟩
  rintro (⟨payload, -, panics⟩ | runs)
  · exact absurd panics (never payload)
  · exact runs

end

/-- Complete runs of these futures with these answers, each of them in the poll in which the one
before it has ended. -/
inductive InTurn : List (Future σ α) → σ → List σ → List α → σ → Prop where
  | none {state} : InTurn [] state [] [] state
  | next {future later state first inputs answer answers middle last}
      (runs : (future state).Answers first answer middle)
      (rest : InTurn later middle inputs answers last) :
      InTurn (future :: later) state (first ++ inputs) (answer :: answers) last

theorem inTurn_nil_iff {state last : σ} {inputs : List σ} {answers : List α} :
    InTurn [] state inputs answers last ↔ inputs = [] ∧ answers = [] ∧ last = state := by
  constructor
  · rintro ⟨⟩
    exact ⟨rfl, rfl, rfl⟩
  · rintro ⟨rfl, rfl, rfl⟩
    exact .none

theorem inTurn_cons_iff {future : Future σ α} {later : List (Future σ α)} {state last : σ}
    {inputs : List σ} {answers : List α} :
    InTurn (future :: later) state inputs answers last ↔
      ∃ first rest answer others middle, inputs = first ++ rest ∧ answers = answer :: others ∧
        (future state).Answers first answer middle ∧ InTurn later middle rest others last := by
  constructor
  · rintro ⟨⟩
    exact ⟨_, _, _, _, _, rfl, rfl, ‹_›, ‹_›⟩
  · rintro ⟨first, rest, answer, others, middle, rfl, rfl, runs, inTurn⟩
    exact .next runs inTurn

theorem InTurn.length_eq {futures : List (Future σ α)} {state last : σ} {inputs : List σ}
    {answers : List α} (inTurn : InTurn futures state inputs answers last) :
    futures.length = answers.length := by
  induction inTurn with
  | none => rfl
  | next _ _ ih => exact congrArg (· + 1) ih

/-- The first futures answer in turn, the next one panics, and the others do not begin. -/
inductive BreaksOff : List (Future σ α) → σ → List σ → Payload → σ → Prop where
  | here {future later state inputs payload last}
      (panics : (future state).Panics inputs payload last) :
      BreaksOff (future :: later) state inputs payload last
  | later {future later state first inputs answer payload middle last}
      (runs : (future state).Answers first answer middle)
      (rest : BreaksOff later middle inputs payload last) :
      BreaksOff (future :: later) state (first ++ inputs) payload last

theorem BreaksOff.panics {futures : List (Future σ α)} {state last : σ} {inputs : List σ}
    {payload : Payload} (breaks : BreaksOff futures state inputs payload last) :
    ∃ future ∈ futures, ∃ before later, (future before).Panics later payload last := by
  induction breaks with
  | here panics => exact ⟨_, List.mem_cons_self, _, _, panics⟩
  | later _ _ ih =>
    obtain ⟨future, member, panics⟩ := ih
    exact ⟨future, List.mem_cons_of_mem _ member, panics⟩

/-- Wherever the computation has to wait, there is a state that lets it go on. -/
def Wakes : Poll σ α → Prop
  | ready _ _ => True
  | panic _ _ => True
  | waiting wait resume _ =>
      (∃ state, wait.opens state = true) ∧
        ∀ state, wait.opens state = true → (resume state).Wakes
  | spawn _ rest state => (rest state).Wakes

theorem Wakes.bind {poll : Poll σ α} {next : α → σ → Poll σ β} (wakes : poll.Wakes)
    (goesOn : ∀ value state, (next value state).Wakes) : (poll.bind next).Wakes := by
  induction poll with
  | ready value state => exact goesOn value state
  | panic => trivial
  | waiting wait resume state ih =>
    exact ⟨wakes.1, fun woken opens => ih woken (wakes.2 woken opens)⟩
  | spawn child rest state ih => exact ih state wakes

theorem Wakes.contained [Host σ] {poll : Poll σ α} (wakes : poll.Wakes) : poll.contained.Wakes := by
  induction poll with
  | ready | panic => trivial
  | waiting wait resume state ih =>
    exact ⟨wakes.1, fun woken opens => ih woken (wakes.2 woken opens)⟩
  | spawn child rest state ih => exact ih state wakes

/-- A computation that can always be woken has a complete run. -/
theorem Wakes.ends {poll : Poll σ α} (wakes : poll.Wakes) :
    ∃ inputs ending last, poll.EndsWith inputs ending last := by
  induction poll with
  | ready value state => exact ⟨[], .ok value, state, .ready⟩
  | panic payload state => exact ⟨[], .error payload, state, .panic⟩
  | waiting wait resume state ih =>
    obtain ⟨⟨woken, opens⟩, goesOn⟩ := wakes
    obtain ⟨inputs, ending, last, ends⟩ := ih woken (goesOn woken opens)
    exact ⟨woken :: inputs, ending, last,
      endsWith_waiting_iff.mpr ⟨woken, inputs, rfl, opens, ends⟩⟩
  | spawn child rest state ih =>
    obtain ⟨inputs, ending, last, ends⟩ := ih state wakes
    exact ⟨inputs, ending, last, endsWith_spawn_iff.mpr ends⟩

/-- However it is woken, the computation does not panic, and it can always be woken. -/
structure Settles (poll : Poll σ α) : Prop where
  wakes : poll.Wakes
  not_panics : ∀ inputs payload last, ¬poll.Panics inputs payload last

theorem settles_ready {value : α} {state : σ} : (ready value state).Settles :=
  ⟨trivial, nofun⟩

theorem Settles.bind {poll : Poll σ α} {next : α → σ → Poll σ β} (settles : poll.Settles)
    (goesOn : ∀ value state, (next value state).Settles) : (poll.bind next).Settles := by
  refine ⟨settles.wakes.bind fun value state => (goesOn value state).wakes, ?_⟩
  intro inputs payload last panics
  rcases panics_bind_iff.mp panics with panics | ⟨_, _, value, middle, -, -, panics⟩
  · exact settles.not_panics _ _ _ panics
  · exact (goesOn value middle).not_panics _ _ _ panics

theorem Settles.answers {poll : Poll σ α} (settles : poll.Settles) :
    ∃ inputs value last, poll.Answers inputs value last := by
  obtain ⟨inputs, ending, last, ends⟩ := settles.wakes.ends
  cases ending with
  | ok value => exact ⟨inputs, value, last, ends⟩
  | error payload => exact absurd ends (settles.not_panics _ _ _)

end Poll

/-- Every run of the action, called and then awaited, comes to a result. -/
def Action.Settles (action : Action σ α) : Prop :=
  ∀ state, (action.awaited state).Settles

namespace Future

variable {code : Code σ α} {state last : σ} {inputs : List σ}

theorem ofCode_answers_iff {value : α} :
    (ofCode code state).Answers inputs value last ↔
      inputs = [] ∧ code state = (.ok value, last) := by
  unfold ofCode
  rcases code state with ⟨payload | other, after⟩
  · exact ⟨nofun, nofun⟩
  · refine Poll.answers_ready_iff.trans (and_congr_right fun _ => ?_)
    rw [Prod.mk.injEq, Except.ok.injEq, eq_comm, @eq_comm _ last]

theorem ofCode_panics_iff {payload : Payload} :
    (ofCode code state).Panics inputs payload last ↔
      inputs = [] ∧ code state = (.error payload, last) := by
  unfold ofCode
  rcases code state with ⟨other | value, after⟩
  · constructor
    · rintro ⟨⟩
      exact ⟨rfl, rfl⟩
    · rintro ⟨rfl, ⟨⟩⟩
      exact .panic
  · exact ⟨nofun, nofun⟩

theorem wakes_ofCode : (ofCode code state).Wakes := by
  unfold ofCode
  rcases code state with ⟨payload | value, after⟩ <;> trivial

end Future
end Deferred
