import Deferred.Proofs.Cache.Exclusion
import Deferred.Proofs.Cache.Program
import Deferred.Proofs.Notebook

/-! Programs that run an action behind a gate. Each poll of such a run is a sequence of steps of a
visit to the gate, if neither the action nor the host touches the gate. So the runs of a program
exclude each other as those of a session do. -/

namespace Deferred.CachedAlone

variable {σ ρ : Type}

/-- What comes next, in the first turn that affords it. -/
def paid [Host σ] (place : Place σ (Gate ρ)) (ticket : Nat) (next : Future σ ρ) : Future σ ρ :=
  fun state => (show Poll σ Unit from Action.entered place ticket state).bind fun _ => next

theorem paid_eq [Host σ] (place : Place σ (Gate ρ)) (ticket : Nat) (next : Future σ ρ) (state : σ) :
    paid place ticket next state =
      if 0 < Host.allowance state then next (Host.spend state)
      else .waiting (Wait.turn.holding (place.modify (Gate.leave ticket)))
        (fun after => next (Host.spend after)) state := by
  have entered : Action.entered place ticket state =
      Poll.holding (place.modify (Gate.leave ticket))
        (Poll.bind
          (if 0 < Host.allowance state then .ready () state
          else .waiting .turn (fun s => .ready () s) state)
          fun () s => .ready () (Host.spend s)) := rfl
  unfold paid
  rw [entered]
  split <;> rfl

variable [HasFailure ρ]

/-- What a run does with the result of its invocation. -/
def settle (place : Place σ (Gate ρ)) (ticket : Nat) (result : ρ) : Future σ ρ :=
  fun state =>
    if HasFailure.isFailure result then .ready result (place.modify (Gate.leave ticket) state)
    else .ready result (place.modify (Gate.store result) state)

/-- An invocation and what comes after it. A run that is dropped inside leaves. -/
def inside (place : Place σ (Gate ρ)) (ticket : Nat) (poll : Poll σ ρ) : Poll σ ρ :=
  (poll.bind (settle place ticket)).holding (place.modify (Gate.leave ticket))

/-- What a run does when it was called and may go on. -/
def enter (place : Place σ (Gate ρ)) (action : Action σ ρ) (ticket : Nat) : Future σ ρ :=
  fun state =>
    match (place.get state).value with
    | some value => .ready value (place.set (place.get state) state)
    | none => inside place ticket (action.awaited (place.set (place.get state) state))

/-- What a run does that was called, as soon as it has looked. -/
def look (place : Place σ (Gate ρ)) (action : Action σ ρ) (ticket : Nat) : Option ρ → Future σ ρ
  | some value => pure value
  | none => action.insideGate place ticket

theorem look_eq_enter (place : Place σ (Gate ρ)) (action : Action σ ρ) (ticket : Nat) (state : σ) :
    look place action ticket (place.get state).value (place.set (place.get state) state) =
      enter place action ticket state := by
  unfold enter
  cases (place.get state).value <;> rfl

theorem enter_of_empty (place : Place σ (Gate ρ)) (action : Action σ ρ) (ticket : Nat) {state : σ}
    (empty : (place.get state).value = none) :
    enter place action ticket state =
      inside place ticket (action.awaited (place.set (place.get state) state)) := by
  rw [enter, empty]

section programs

variable [Host σ] {action : Action σ ρ} {place : Place σ (Gate ρ)}

/-- What a run does that has arrived. -/
def proceed (place : Place σ (Gate ρ)) (action : Action σ ρ) : Arrival ρ → Future σ ρ
  | .settled value => pure value
  | .admitted ticket => do
      Action.entered place ticket
      action.insideGate place ticket
  | .queued ticket => do
      Action.called place ticket
      look place action ticket (← place.step fun held => (held.value, held))

theorem cachedAlone_awaited (place : Place σ (Gate ρ)) (action : Action σ ρ) (state : σ) :
    (action.cachedAlone place).awaited state =
      match (place.get state).arrive with
      | (.settled value, rest) => .ready value (place.set rest state)
      | (.admitted ticket, rest) =>
          paid place ticket (fun after => inside place ticket (action.awaited after))
            (place.set rest state)
      | (.queued ticket, rest) => (Action.called place ticket (place.set rest state)).bind
          fun _ => enter place action ticket := by
  have arrived : (action.cachedAlone place).awaited state =
      proceed place action (place.get state).arrive.1
        (place.set (place.get state).arrive.2 state) := rfl
  rw [arrived]
  rcases (place.get state).arrive with ⟨_ | _ | ticket, rest⟩
  · rfl
  · rfl
  · exact congrArg (Poll.bind _) (funext fun _ => funext (look_eq_enter place action ticket))

/-- Which run of a program shows a visit at this stage. -/
inductive Shows (place : Place σ (Gate ρ)) (action : Action σ ρ) :
    Visit σ ρ → Running σ ρ → Prop where
  | fresh : Shows place action .fresh (.stopped .passed (action.cachedAlone place).awaited)
  | waits {ticket count own} : Shows place action ⟨.waits ticket, count, own⟩
      (.stopped ⟨none, fun s => (place.get s).calls ticket, place.modify (Gate.leave ticket)⟩
        (paid place ticket (enter place action ticket)))
  | called {ticket count own} : Shows place action ⟨.called ticket, count, own⟩
      (.stopped (Wait.turn.holding (place.modify (Gate.leave ticket)))
        fun s => enter place action ticket (Host.spend s))
  | admitted {ticket count own} : Shows place action ⟨.admitted ticket, count, own⟩
      (.stopped (Wait.turn.holding (place.modify (Gate.leave ticket)))
        fun s => inside place ticket (action.awaited (Host.spend s)))
  | waiting {ticket wait resume before count own}
      (releases : ∀ s, place.get (wait.release s) = place.get s)
      (resumes : ∀ s, (resume s).Keeps place (place.get s)) :
      Shows place action ⟨.invokes ticket (.waiting wait resume before), count, own⟩
        (.stopped (wait.holding (place.modify (Gate.leave ticket)))
          fun s => inside place ticket (resume s))
  | answered {result count own} :
      Shows place action ⟨.answered result, count, own⟩ (.answered result)
  | panicked {count own} : Shows place action ⟨.panicked, count, own⟩ .panicked
  | dropped {count own} : Shows place action ⟨.dropped, count, own⟩ .dropped

/-- A poll inside the gate, after which the run leaves or stores its result if it has one. -/
theorem comes_of_keeps (action : Action σ ρ) (ticket : Nat) {poll : Poll σ ρ} {gate : Gate ρ}
    (keeps : poll.Keeps place gate) (count : Nat) (own : Option ρ) :
    Program.Comes place (Visit.Step action) (Shows place action)
      ⟨.invokes ticket poll, count, own⟩ gate (inside place ticket poll).running
      (inside place ticket poll).state := by
  induction keeps with
  | @ready _ result state same =>
    subst same
    cases failed : HasFailure.isFailure result with
    | true =>
      have settled : inside place ticket (.ready result state) =
          .ready result (place.modify (Gate.leave ticket) state) := by
        simp [inside, Poll.bind, settle, failed, Poll.holding]
      rw [settled]
      exact ((Program.Comes.stay .answered (place.get_set _ state)).head (.fail failed)).head
        .complete
    | false =>
      have settled : inside place ticket (.ready result state) =
          .ready result (place.modify (Gate.store result) state) := by
        simp [inside, Poll.bind, settle, failed, Poll.holding]
      rw [settled]
      exact ((Program.Comes.stay .answered (place.get_set _ state)).head (.store failed)).head
        .complete
  | @panic _ payload state same =>
    subst same
    exact (Program.Comes.stay .panicked (place.get_set _ state)).head .panic
  | waiting same releases resumes => exact .stay (.waiting releases resumes) same
  | @spawn _ child rest state same resumes ih =>
    subst same
    exact (ih state).head (.goOn (.spawn state))

/-- The next part is run at once or, in the same state, the run stops before it. -/
theorem comes_of_paid {visit : Visit σ ρ} {gate : Gate ρ} {ticket : Nat} {next : Future σ ρ}
    {state : σ}
    (goes : Program.Comes place (Visit.Step action) (Shows place action) visit gate
      (next (Host.spend state)).running (next (Host.spend state)).state)
    (stops : Program.Comes place (Visit.Step action) (Shows place action) visit gate
      (.stopped (Wait.turn.holding (place.modify (Gate.leave ticket)))
        fun after => next (Host.spend after)) state) :
    Program.Comes place (Visit.Step action) (Shows place action) visit gate
      (paid place ticket next state).running (paid place ticket next state).state := by
  rw [paid_eq]
  split
  · exact goes
  · exact stops

section shown

variable (keeps : ∀ state, (action.awaited state).Keeps place (place.get state))
include keeps

theorem comes_in (ticket count : Nat) (own : Option ρ) (state : σ) :
    Program.Comes place (Visit.Step action) (Shows place action) ⟨.admitted ticket, count, own⟩
      (place.get state) (inside place ticket (action.awaited state)).running
      (inside place ticket (action.awaited state)).state :=
  (comes_of_keeps action ticket (keeps state) (count + 1) own).head (.invoke state)

theorem comes_when_called (ticket count : Nat) (own : Option ρ) (state : σ) :
    Program.Comes place (Visit.Step action) (Shows place action) ⟨.called ticket, count, own⟩
      (place.get state) (enter place action ticket state).running
      (enter place action ticket state).state := by
  unfold enter
  cases held : (place.get state).value with
  | some kept => exact (Program.Comes.stay .answered (place.get_set _ state)).head (.take held)
  | none =>
    have invoked := comes_in keeps ticket count own (place.set (place.get state) state)
    rw [place.get_set] at invoked
    exact invoked.head (.enter held)

variable (apart : ∀ count state, place.get (Host.allow count state) = place.get state)
include apart

theorem shown : Program.Shown (action.cachedAlone place).awaited place .fresh (Visit.Step action)
    (Shows place action) where
  fresh := .fresh
  poll visit wait resume state shows opens := by
    have spent : ∀ s, place.get (Host.spend s) = place.get s := fun s => apart _ s
    cases shows with
    | fresh =>
      rw [cachedAlone_awaited]
      rcases arrived : (place.get state).arrive with ⟨_ | ticket | ticket, rest⟩
      · exact (Program.Comes.stay .answered (place.get_set _ state)).head (.settled arrived)
      · have comes := comes_in keeps ticket 0 none (Host.spend (place.set rest state))
        rw [spent, place.get_set] at comes
        exact comes_of_paid (comes.head (.admitted arrived))
          ((Program.Comes.stay .admitted (place.get_set _ state)).head (.admitted arrived))
      · exact (Program.Comes.stay .waits (place.get_set _ state)).head (.queued arrived)
    | @waits ticket count own =>
      have comes := comes_when_called keeps ticket count own (Host.spend state)
      rw [spent] at comes
      exact comes_of_paid (comes.head (.call opens))
        ((Program.Comes.stay .called rfl).head (.call opens))
    | @called ticket count own =>
      have comes := comes_when_called keeps ticket count own (Host.spend state)
      rw [spent] at comes
      exact comes
    | @admitted ticket count own =>
      have comes := comes_in keeps ticket count own (Host.spend state)
      rw [spent] at comes
      exact comes
    | waiting releases resumes =>
      exact (comes_of_keeps action _ (resumes state) _ _).head (.goOn (.resume state opens))
  drop visit wait resume state shows := by
    cases shows with
    | fresh => exact (Program.Comes.stay .dropped rfl).head (.drop rfl)
    | waits | called | admitted =>
      exact (Program.Comes.stay .dropped (place.get_set _ state)).head (.drop rfl)
    | @waiting ticket inner _ _ _ _ releases =>
      have left : place.get (place.modify (Gate.leave ticket) (inner.release state)) =
          (place.get state).leave ticket :=
        (place.get_set _ _).trans (congrArg (Gate.leave ticket) (releases state))
      exact (Program.Comes.stay .dropped left).head (.drop rfl)

/-- Whatever the order of its turns, a program that runs the action behind the gate does what a
session does that begins with a fresh gate. -/
theorem steps_of_turns {program : Program σ ρ} {start : σ} (fresh : place.get start = .fresh)
    (turns : Program.Turns (action.cachedAlone place).awaited place ⟨start, []⟩ program) :
    ∃ visits, Program.Aligned (Shows place action) visits program.runs ∧
      Steps action .initial ⟨place.get program.state, visits⟩ := by
  obtain ⟨visits, aligned, steps⟩ := (shown keeps apart).turns turns
  rw [fresh] at steps
  exact ⟨visits, aligned, steps⟩

end shown

/-! ### Who goes in -/

/-- The run with this ticket is in the middle of its invocation, or its next poll in a turn with
some allowance begins it, for as long as the gate stays as it is. -/
inductive Proceeds (place : Place σ (Gate ρ)) (action : Action σ ρ) (ticket : Nat)
    (gate : Gate ρ) : Running σ ρ → Prop where
  | invokes {wait : Wait σ} {rest : σ → Poll σ ρ} : Proceeds place action ticket gate
      (.stopped (wait.holding (place.modify (Gate.leave ticket)))
        fun s => inside place ticket (rest s))
  | begins {wait resume}
      (goesIn : ∀ state, place.get state = gate → 0 < Host.allowance state →
        wait.opens state = true ∧ ∃ before, place.get before = gate ∧
          resume state = inside place ticket (action.awaited before)) :
      Proceeds place action ticket gate (.stopped wait resume)

theorem Shows.proceeds (apart : ∀ count state, place.get (Host.allow count state) = place.get state)
    {visit : Visit σ ρ} {run : Running σ ρ} (shows : Shows place action visit run) {ticket : Nat}
    {gate : Gate ρ} (mine : visit.stage.ticket? = some ticket) (holds : gate.holder = some ticket)
    (empty : gate.value = none) : Proceeds place action ticket gate run := by
  have spent : ∀ s, place.get (Host.spend s) = place.get s := fun s => apart _ s
  have entered : ∀ s, place.get s = gate → ∃ before, place.get before = gate ∧
      enter place action ticket (Host.spend s) = inside place ticket (action.awaited before) := by
    rintro s rfl
    refine ⟨_, ?_, enter_of_empty place action ticket (by rw [spent]; exact empty)⟩
    rw [place.get_set, spent]
  cases shows with
  | waits =>
    obtain rfl := Option.some.inj mine
    refine .begins fun state same allowed => ⟨?_, ?_⟩
    · simp [same, Gate.calls, holds]
    · obtain ⟨before, there, goesIn⟩ := entered state same
      exact ⟨before, there, by rw [paid_eq, if_pos allowed, goesIn]⟩
  | called =>
    obtain rfl := Option.some.inj mine
    exact .begins fun state same allowed => ⟨decide_eq_true allowed, entered state same⟩
  | admitted =>
    obtain rfl := Option.some.inj mine
    exact .begins fun state same allowed =>
      ⟨decide_eq_true allowed, _, (spent state).trans same, rfl⟩
  | waiting =>
    obtain rfl := Option.some.inj mine
    exact .invokes
  | fresh | answered | panicked | dropped => cases mine

/-- A run that finds the way free has it at once, and begins in the first turn that affords it. -/
theorem awaited_of_free {state : σ} (empty : (place.get state).value = none)
    (free : (place.get state).holder = none) :
    (action.cachedAlone place).awaited state =
      paid place (place.get state).issued
        (fun after => inside place (place.get state).issued (action.awaited after))
        (place.set { place.get state with
          holder := some (place.get state).issued
          issued := (place.get state).issued + 1 } state) := by
  rw [cachedAlone_awaited]
  rcases (place.get state).arrive_eq with ⟨kept, held, -⟩ | ⟨-, -, arrived⟩ | ⟨-, taken, -⟩
  · rw [empty] at held
    cases held
  · rw [arrived]
  · exact absurd free taken

/-! ### All runs -/

/-- The runs of a program, now and later. -/
structure RunsAdmitted (place : Place σ (Gate ρ)) (action : Action σ ρ)
    (program later : Program σ ρ) : Prop
    extends Program.Agrees (fun s => (place.get s).value) action.Gives program later where
  /-- They show the visits of a session. -/
  visits : ∃ visits after : List (Visit σ ρ),
    Program.Aligned (Shows place action) visits program.runs ∧
    Program.Aligned (Shows place action) after later.runs ∧
    Session.AdmitsOne action ⟨place.get program.state, visits⟩ ⟨place.get later.state, after⟩
  /-- Whoever has the way is there and goes in. -/
  proceeds : ∀ ticket, (place.get program.state).holder = some ticket →
    ∃ (index : Nat) (run : Running σ ρ), program.runs[index]? = some run ∧
      Proceeds place action ticket (place.get program.state) run
  /-- If nobody has it, the next one to arrive does. -/
  next : ∀ state, place.get state = place.get program.state →
    (place.get state).value = none → (place.get state).holder = none →
      (action.cachedAlone place).awaited state =
        paid place (place.get state).issued
          (fun after => inside place (place.get state).issued (action.awaited after))
          (place.set { place.get state with
            holder := some (place.get state).issued
            issued := (place.get state).issued + 1 } state)

section turns

variable (keeps : ∀ state, (action.awaited state).Keeps place (place.get state))
  (apart : ∀ count state, place.get (Host.allow count state) = place.get state)
  {program later : Program σ ρ} {start : σ} (fresh : place.get start = .fresh)
  (turns : Program.Turns (action.cachedAlone place).awaited place ⟨start, []⟩ program)
include keeps apart fresh turns

theorem answers_of_turns :
    program.Answers (fun s => (place.get s).value) action.Gives := by
  intro index result answered
  obtain ⟨visits, aligned, steps⟩ := steps_of_turns keeps apart fresh turns
  obtain ⟨visit, found, shows⟩ := aligned.exists_visit answered
  have sound := (Steps.sound steps).visits visit (List.mem_of_getElem? found)
  cases shows with
  | answered =>
    exact ⟨fun failed => sound.given result (sound.failure result rfl failed),
      sound.kept result rfl⟩

theorem proceeds_of_turns {ticket : Nat} (holds : (place.get program.state).holder = some ticket) :
    ∃ (index : Nat) (run : Running σ ρ), program.runs[index]? = some run ∧
      Proceeds place action ticket (place.get program.state) run := by
  obtain ⟨visits, aligned, steps⟩ := steps_of_turns keeps apart fresh turns
  have lined := Steps.lined steps
  obtain ⟨⟨visit, member, mine⟩, -⟩ := lined.holder_live holds
  obtain ⟨index, here⟩ := List.mem_iff_getElem?.mp member
  obtain ⟨run, found, shows⟩ := aligned.exists_run here
  exact ⟨index, run, found, shows.proceeds apart mine holds (lined.gate.value_of_holder holds)⟩

theorem runsAdmitted_of_turns
    (more : Program.Turns (action.cachedAlone place).awaited place program later) :
    RunsAdmitted place action program later := by
  obtain ⟨visits, aligned, reached⟩ := steps_of_turns keeps apart fresh turns
  obtain ⟨after, alignedLater, steps⟩ := (shown keeps apart).turns_from more aligned
  have admits := Steps.admitsOne reached steps
  refine ⟨.of_answers ?_ (answers_of_turns keeps apart fresh turns)
    (answers_of_turns keeps apart fresh (turns.trans more)),
    ⟨visits, after, aligned, alignedLater, admits⟩, ?_, ?_⟩
  · intro kept held
    obtain ⟨stays, good, visit, member, own⟩ := admits.kept kept held
    exact ⟨stays, good, (admits.visits visit member).2.1 kept own⟩
  · intro ticket holds
    exact proceeds_of_turns keeps apart fresh turns holds
  · intro state _ empty free
    exact awaited_of_free empty free

end turns

end programs

/-- However the runs of an action behind a gate interleave, in the steps of a session or in the
turns of a program: at most one is inside, and at most one invocation ever ends without a failure,
whose result is then what all runs answer that do not fail. No run invokes the action twice, and a
failure is the result of the run's own invocation. Only the run that has the way is inside; the way
belongs to the live run that has waited longest, which can go in, and to the next one to arrive if
nobody waits. -/
theorem runs_admitted_one_by_one (action : Action σ ρ) :
    (∀ session later : Session σ ρ, Steps action .initial session → Steps action session later →
      session.AdmitsOne action later) ∧
    ∀ [Host σ] (place : Place σ (Gate ρ)) (start : σ) (program later : Program σ ρ),
      (∀ state, (action.awaited state).Keeps place (place.get state)) →
      (∀ count state, place.get (Host.allow count state) = place.get state) →
      place.get start = .fresh →
      Program.Turns (action.cachedAlone place).awaited place ⟨start, []⟩ program →
      Program.Turns (action.cachedAlone place).awaited place program later →
        RunsAdmitted place action program later := by
  refine ⟨fun session later reached steps => Steps.admitsOne reached steps, ?_⟩
  intro host place start program later keeps apart fresh turns more
  exact runsAdmitted_of_turns keeps apart fresh turns more

/-! ### A failure that makes way -/

/-- A notebook with a gate. -/
abbrev Lodge : Type := Notebook (Gate (Verdict Nat))

/-- Stops once, and then fails unless some time has passed. -/
def tardy : Action Lodge (Verdict Nat) :=
  .lazily fun state => .waiting .passed
    (fun s => .ready (if s.time = 0 then .failure .bottom else .success s.time) s) state

theorem tardy_keeps (state : Lodge) :
    (tardy.awaited state).Keeps Notebook.place (Notebook.place.get state) :=
  .waiting rfl (fun _ => rfl) fun _ => .ready rfl

abbrev Lodge.Turns : Program Lodge (Verdict Nat) → Program Lodge (Verdict Nat) → Prop :=
  Program.Turns (tardy.cachedAlone Notebook.place).awaited Notebook.place

/-- A run that is first polled at this gate. -/
def Lodge.begun (gate : Gate (Verdict Nat)) : Running Lodge (Verdict Nat) :=
  ((tardy.cachedAlone Notebook.place).awaited (.opened gate)).running

/-- The notebook when one run has gone in. -/
def Lodge.entered (gate : Gate (Verdict Nat)) : Lodge :=
  { Notebook.opened gate with left := 127 }

open Lodge in
/-- The first run has failed, and the second one was dropped while it waited. -/
def handedOn : Program Lodge (Verdict Nat) where
  state := entered ⟨none, some 2, [], 3⟩
  runs := [.answered (.failure .bottom), .dropped, begun ⟨none, some 0, [1], 2⟩]

open Lodge in
theorem turns_handedOn : Lodge.Turns ⟨.opened .fresh, []⟩ handedOn := by
  have called : Lodge.Turns ⟨.opened .fresh, []⟩ _ :=
    ((Relation.ReflTransGen.refl.tail .call).tail .call).tail .call
  have first : Lodge.Turns _ ⟨entered ⟨none, some 0, [], 1⟩,
      [begun .fresh, .stopped .passed _, .stopped .passed _]⟩ := called.poll 0 rfl rfl rfl rfl
  have second : Lodge.Turns _ ⟨entered ⟨none, some 0, [1], 2⟩,
      [begun .fresh, begun ⟨none, some 0, [], 1⟩, .stopped .passed _]⟩ :=
    first.poll 1 rfl rfl rfl rfl
  have third : Lodge.Turns _ ⟨entered ⟨none, some 0, [1, 2], 3⟩,
      [begun .fresh, begun ⟨none, some 0, [], 1⟩, begun ⟨none, some 0, [1], 2⟩]⟩ :=
    second.poll 2 rfl rfl rfl rfl
  have dropped : Lodge.Turns ⟨.opened .fresh, []⟩ ⟨entered ⟨none, some 0, [2], 3⟩,
      [begun .fresh, .dropped, begun ⟨none, some 0, [1], 2⟩]⟩ := by
    have left := third.tail (@Program.Turn.drop _ _ _ _ _ _ 1 _ _ rfl)
    exact left
  exact dropped.poll 0 rfl rfl rfl rfl

theorem handedOn_admitted :
    (∀ visit ∈ passed.visits, ∀ other, visit.stage.ticket? = some other → 2 ≤ other) ∧
    passed.Invokes flaky 2 2 5 ∧
    (Notebook.place.get handedOn.state).holder = some 2 ∧ tardy.Gives (.failure .bottom) ∧
      ∃ (index : Nat) (run : Running Lodge (Verdict Nat)), handedOn.runs[index]? = some run ∧
        Proceeds Notebook.place tardy 2 (Notebook.place.get handedOn.state) run := by
  have session := (runs_admitted_one_by_one flaky).1 _ _ steps_passed .refl
  have program := (runs_admitted_one_by_one tardy).2 Notebook.place _ _ _ tardy_keeps
    (fun _ _ => rfl) rfl turns_handedOn .refl
  obtain ⟨-, first, goesIn⟩ := session.proceeds 2 rfl
  exact ⟨first, (goesIn 2 _ 5 rfl rfl).resolve_left Bool.false_ne_true, rfl,
    (program.answers 0 _ rfl).1 rfl, program.proceeds 2 rfl⟩

end Deferred.CachedAlone
