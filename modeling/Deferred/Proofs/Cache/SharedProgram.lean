import Deferred.Proofs.Cache.Program
import Deferred.Proofs.Cache.Shared

/-! Programs that run a cached action. Each poll of such a run is a sequence of steps of a visit to
the latch, if the action itself leaves the latch alone. So the runs of a program agree as those of
a session do. -/

namespace Deferred.Cached

variable {σ ρ : Type} [HasFailure ρ] {action : Action σ ρ} {place : Place σ (Latch ρ)}

/-- What a run does with the result of its invocation. -/
def settle (place : Place σ (Latch ρ)) (result : ρ) : Future σ ρ :=
  fun state =>
    .ready ((place.get state).offer result).1
      (place.set ((place.get state).offer result).2 state)

theorem cached_awaited (place : Place σ (Latch ρ)) (action : Action σ ρ) (state : σ) :
    (action.cached place).awaited state =
      match (place.get state).value with
      | some kept => .ready kept (place.set (place.get state) state)
      | none => (action.awaited (place.set (place.get state) state)).bind (settle place) := by
  have looked : (action.cached place).awaited state =
      (match (place.get state).value with
      | some kept => (pure kept : Future σ ρ)
      | none => do
        let result ← action.awaited
        place.step (·.offer result)) (place.set (place.get state) state) := rfl
  rw [looked]
  cases (place.get state).value <;> rfl

/-- Which run of a program shows a visit at this stage. -/
inductive Shows (place : Place σ (Latch ρ)) (action : Action σ ρ) :
    Visit σ ρ → Running σ ρ → Prop where
  | fresh : Shows place action .fresh (.stopped .passed (action.cached place).awaited)
  | waiting {wait resume before count own}
      (releases : ∀ s, place.get (wait.release s) = place.get s)
      (resumes : ∀ s, (resume s).Keeps place (place.get s)) :
      Shows place action ⟨.invokes (.waiting wait resume before), count, own⟩
        (.stopped wait fun s => (resume s).bind (settle place))
  | answered {result count own} :
      Shows place action ⟨.answered result, count, own⟩ (.answered result)
  | panicked {count own} : Shows place action ⟨.panicked, count, own⟩ .panicked
  | dropped {count own} : Shows place action ⟨.dropped, count, own⟩ .dropped

/-- A poll of the invocation, which settles its result if it has come to one. -/
theorem comes_of_keeps (action : Action σ ρ) {poll : Poll σ ρ} {latch : Latch ρ}
    (keeps : poll.Keeps place latch) (count : Nat) (own : Option ρ) :
    Program.Comes place (Visit.Step action) (Shows place action) ⟨.invokes poll, count, own⟩ latch
      (poll.bind (settle place)).running (poll.bind (settle place)).state := by
  induction keeps with
  | @ready _ result state same =>
    subst same
    exact ((Program.Comes.stay .answered (place.get_set _ state)).head .settle).head .complete
  | panic same => exact (Program.Comes.stay .panicked same).head .panic
  | waiting same releases resumes => exact .stay (.waiting releases resumes) same
  | @spawn _ child rest state same resumes ih =>
    subst same
    exact (ih state).head (.goOn (.spawn state))

theorem shown (keeps : ∀ state, (action.awaited state).Keeps place (place.get state)) :
    Program.Shown (action.cached place).awaited place .fresh (Visit.Step action)
      (Shows place action) where
  fresh := .fresh
  poll visit wait resume state shows opens := by
    cases shows with
    | fresh =>
      rw [cached_awaited]
      cases held : (place.get state).value with
      | some kept => exact (Program.Comes.stay .answered (place.get_set _ state)).head (.hit held)
      | none =>
        have invoked := comes_of_keeps action (keeps (place.set (place.get state) state)) 1 none
        rw [place.get_set] at invoked
        exact (invoked.head (.invoke _)).head (.miss held)
    | waiting releases resumes =>
      exact (comes_of_keeps action (resumes state) _ _).head (.goOn (.resume state opens))
  drop visit wait resume state shows := by
    cases shows with
    | fresh => exact (Program.Comes.stay .dropped rfl).head (.drop rfl)
    | waiting releases => exact (Program.Comes.stay .dropped (releases state)).head (.drop rfl)

/-- Whatever the order of its turns, a program that runs the cached action does what a session
does that begins with an empty latch. -/
theorem steps_of_turns {program : Program σ ρ} {start : σ}
    (keeps : ∀ state, (action.awaited state).Keeps place (place.get state))
    (empty : place.get start = .empty)
    (turns : Program.Turns (action.cached place).awaited place ⟨start, []⟩ program) :
    ∃ visits, Program.Aligned (Shows place action) visits program.runs ∧
      Steps action .initial ⟨place.get program.state, visits⟩ := by
  obtain ⟨visits, aligned, steps⟩ := (shown keeps).turns turns
  rw [empty] at steps
  exact ⟨visits, aligned, steps⟩

/-! ### Turns -/

/-- Moves of one run fill the latch only as it answers with a result that is not a failure. -/
theorem fills_of_moves {visit after : Visit σ ρ} {latch rest : Latch ρ}
    (moves : Session.Moves (Visit.Step action) visit latch after rest) :
    rest = latch ∨ ∃ result, HasFailure.isFailure result = false ∧ latch.value = none ∧
      rest.value = some result ∧ after.stage = .answered result := by
  induction moves with
  | stay => exact .inl rfl
  | move _ step ih =>
    rcases ih with rfl | ⟨result, -, -, -, stage⟩
    · rcases step.fills with same | ⟨result, good, empty, filled, -, rfl⟩
      · exact .inl same
      · exact .inr ⟨result, good, empty, filled, rfl⟩
    · cases step with
      | drop may => dsimp only at stage; subst stage; cases may
      | hit | miss | invoke | goOn | complete | panic | settle => cases stage

/-- A run fills the latch of a program as it answers. -/
def Fills (place : Place σ (Latch ρ)) (program next : Program σ ρ) : Prop :=
  ∃ (index : Nat) (wait : Wait σ) (resume : σ → Poll σ ρ) (result : ρ),
    program.runs[index]? = some (.stopped wait resume) ∧
      next.runs = program.runs.set index (.answered result) ∧
      HasFailure.isFailure result = false ∧ (place.get program.state).value = none ∧
      (place.get next.state).value = some result

variable {program next later : Program σ ρ} {visits : List (Visit σ ρ)}

/-- Whatever a turn leaves of a run, it has filled the latch only if the run has answered. -/
theorem fills_of_comes {visit : Visit σ ρ} {latch : Latch ρ} {run : Running σ ρ} {state : σ}
    (comes : Program.Comes place (Visit.Step action) (Shows place action) visit latch run state) :
    place.get state = latch ∨ ∃ result, run = .answered result ∧
      HasFailure.isFailure result = false ∧ latch.value = none ∧
      (place.get state).value = some result := by
  obtain ⟨⟨stage, count, own⟩, shows, moves⟩ := comes
  rcases fills_of_moves moves with same | ⟨result, good, empty, filled, answered⟩
  · exact .inl same
  · dsimp only at answered
    subst answered
    cases shows with
    | answered => exact .inr ⟨result, rfl, good, empty, filled⟩

theorem fills_of_turn (keeps : ∀ state, (action.awaited state).Keeps place (place.get state))
    (aligned : Program.Aligned (Shows place action) visits program.runs)
    (turn : Program.Turn (action.cached place).awaited place program next) :
    place.get next.state = place.get program.state ∨ Fills place program next := by
  cases turn with
  | call => exact .inl rfl
  | @poll index wait resume here opens =>
    obtain ⟨visit, -, shows⟩ := aligned.exists_visit here
    have comes := (shown keeps).poll visit wait resume program.state shows opens
    rcases fills_of_comes comes with same | ⟨result, answered, good, empty, filled⟩
    · exact .inl same
    · exact .inr ⟨index, wait, resume, result, here, by rw [answered], good, empty, filled⟩
  | @drop index wait resume here =>
    obtain ⟨visit, -, shows⟩ := aligned.exists_visit here
    rcases fills_of_comes ((shown keeps).drop visit wait resume program.state shows) with
      same | ⟨result, answered, -⟩
    · exact .inl same
    · cases answered
  | other same => exact .inl same

/-- A turn in which a run comes to nothing leaves the latch as it was. -/
theorem latch_of_hasFailed (fills : place.get next.state = place.get program.state ∨
      Fills place program next) {index : Nat} {run : Running σ ρ}
    (found : next.runs[index]? = some run) (moved : program.runs[index]? ≠ some run)
    (failed : run.hasFailed = true) : place.get next.state = place.get program.state := by
  rcases fills with same | ⟨other, wait, resume, result, -, runs, good, -⟩
  · exact same
  · rw [runs] at found
    rcases getElem?_set_eq_some found with ⟨-, rfl⟩ | ⟨-, found⟩
    · exact absurd (good.symm.trans failed) Bool.false_ne_true
    · exact absurd found moved

/-- A run that was not polled before this result was kept. -/
def Late (place : Place σ (Latch ρ)) (action : Action σ ρ) (kept : ρ) (run : Running σ ρ) : Prop :=
  run = .stopped .passed (action.cached place).awaited ∨ run = .answered kept ∨ run = .dropped

/-- A run that comes late answers in its first poll, in which it invokes nothing. -/
theorem awaited_of_kept {kept : ρ} {state : σ} (held : (place.get state).value = some kept) :
    (action.cached place).awaited state = .ready kept (place.set (place.get state) state) := by
  rw [cached_awaited, held]

theorem late_of_turn {kept : ρ} {index : Nat}
    (turn : Program.Turn (action.cached place).awaited place program next)
    (held : (place.get program.state).value = some kept)
    (before : ∀ run, program.runs[index]? = some run → Late place action kept run) :
    ∀ run, next.runs[index]? = some run → Late place action kept run := by
  intro run found
  cases turn with
  | call =>
    rcases getElem?_concat_eq_some found with old | ⟨-, rfl⟩
    · exact before run old
    · exact .inl rfl
  | poll here =>
    rcases getElem?_set_eq_some found with ⟨rfl, rfl⟩ | ⟨-, found⟩
    · rcases before _ here with fresh | answered | dropped
      · cases fresh
        rw [awaited_of_kept held]
        exact .inr (.inl rfl)
      · cases answered
      · cases dropped
    · exact before run found
  | drop =>
    rcases getElem?_set_eq_some found with ⟨-, rfl⟩ | ⟨-, found⟩
    · exact .inr (.inr rfl)
    · exact before run found
  | other => exact before run found

/-- The runs of a program, now and later. -/
structure RunsAgree (place : Place σ (Latch ρ)) (action : Action σ ρ)
    (program later : Program σ ρ) : Prop
    extends Program.Agrees (fun s => (place.get s).value) action.Gives program later where
  /-- They show the visits of a session. -/
  visits : ∃ visits after : List (Visit σ ρ),
    Program.Aligned (Shows place action) visits program.runs ∧
    Program.Aligned (Shows place action) after later.runs ∧
    Session.Agrees action ⟨place.get program.state, visits⟩ ⟨place.get later.state, after⟩
  fills : ∀ next, Program.Turn (action.cached place).awaited place program next →
    place.get next.state = place.get program.state ∨ Fills place program next
  failed : ∀ next (index : Nat) (run : Running σ ρ),
    Program.Turn (action.cached place).awaited place program next →
      next.runs[index]? = some run → program.runs[index]? ≠ some run → run.hasFailed = true →
        place.get next.state = place.get program.state
  /-- A run that is first polled when the latch is filled answers at once and invokes nothing. -/
  late : ∀ kept, (place.get program.state).value = some kept →
    (action.cached place).awaited program.state =
      .ready kept (place.set (place.get program.state) program.state) ∧
    ∀ index : Nat, (∀ run, program.runs[index]? = some run →
      run = .stopped .passed (action.cached place).awaited) →
        ∀ run, later.runs[index]? = some run → Late place action kept run

section program

variable {start : σ} (keeps : ∀ state, (action.awaited state).Keeps place (place.get state))
  (empty : place.get start = .empty)
  (turns : Program.Turns (action.cached place).awaited place ⟨start, []⟩ program)
include keeps empty turns

theorem answers_of_turns :
    program.Answers (fun s => (place.get s).value) action.Gives := by
  intro index result answered
  obtain ⟨visits, aligned, steps⟩ := steps_of_turns keeps empty turns
  obtain ⟨visit, found, shows⟩ := aligned.exists_visit answered
  have sound := (Steps.sound steps).visits visit (List.mem_of_getElem? found)
  cases shows with
  | answered =>
    exact ⟨fun failed => sound.given result (sound.failure result rfl failed),
      sound.kept result rfl⟩

theorem kept_of_turns {kept : ρ} (held : (place.get program.state).value = some kept)
    (more : Program.Turns (action.cached place).awaited place program later) :
    (place.get later.state).value = some kept := by
  obtain ⟨visits, aligned, -⟩ := steps_of_turns keeps empty turns
  obtain ⟨after, -, steps⟩ := (shown keeps).turns_from more aligned
  exact Steps.keeps steps held

theorem late_of_turns {kept : ρ} (held : (place.get program.state).value = some kept) {index : Nat}
    (before : ∀ run, program.runs[index]? = some run → Late place action kept run)
    (more : Program.Turns (action.cached place).awaited place program later) :
    ∀ run, later.runs[index]? = some run → Late place action kept run := by
  induction more with
  | refl => exact before
  | tail more turn ih => exact late_of_turn turn (kept_of_turns keeps empty turns held more) ih

theorem runsAgree_of_turns
    (more : Program.Turns (action.cached place).awaited place program later) :
    RunsAgree place action program later := by
  obtain ⟨visits, aligned, reached⟩ := steps_of_turns keeps empty turns
  obtain ⟨after, alignedLater, steps⟩ := (shown keeps).turns_from more aligned
  have agrees := Steps.agrees reached steps
  have fills : ∀ next, Program.Turn (action.cached place).awaited place program next →
      place.get next.state = place.get program.state ∨ Fills place program next :=
    fun next turn => fills_of_turn keeps aligned turn
  refine ⟨.of_answers ?_ (answers_of_turns keeps empty turns)
    (answers_of_turns keeps empty (turns.trans more)),
    ⟨visits, after, aligned, alignedLater, agrees⟩, fills, ?_, ?_⟩
  · intro kept held
    obtain ⟨stays, good, visit, member, own⟩ := agrees.kept kept held
    exact ⟨stays, good, (agrees.visits visit member).2.1 kept own⟩
  · intro next index run turn found moved failed
    exact latch_of_hasFailed (fills next turn) found moved failed
  · intro kept held
    exact ⟨awaited_of_kept held, fun index fresh =>
      late_of_turns keeps empty turns held (fun run found => .inl (fresh run found)) more⟩

end program

/-- However the runs of an action with a latch interleave, in the steps of a session or in the turns
of a program: the latch is filled at most once, by a run whose own result is not a failure, and this
is what all runs answer whose answer is no failure. A run that comes late does not invoke the
action, no run invokes it twice, and a failure is the result of the run's own invocation. -/
theorem runs_agree (action : Action σ ρ) :
    (∀ session later : Session σ ρ, Steps action .initial session → Steps action session later →
      session.Agrees action later) ∧
    ∀ (place : Place σ (Latch ρ)) (start : σ) (program later : Program σ ρ),
      (∀ state, (action.awaited state).Keeps place (place.get state)) →
      place.get start = .empty →
      Program.Turns (action.cached place).awaited place ⟨start, []⟩ program →
      Program.Turns (action.cached place).awaited place program later →
        RunsAgree place action program later := by
  refine ⟨fun session later reached steps => Steps.agrees reached steps, ?_⟩
  intro place start program later keeps empty turns more
  exact runsAgree_of_turns keeps empty turns more

/-! ### Runs that race -/

/-- A number, and a latch beside it. -/
abbrev Shelf : Type := Nat × Latch (Verdict Nat)

def Shelf.latch : Place Shelf (Latch (Verdict Nat)) :=
  ⟨Prod.snd, fun latch shelf => (shelf.1, latch), fun _ _ => rfl⟩

/-- Stops once, and then gives the number that it finds. -/
def pausing : Action Shelf (Verdict Nat) :=
  .lazily fun state => .waiting .passed (fun s => .ready (.success s.1) s) state

theorem pausing_keeps (state : Shelf) :
    (pausing.awaited state).Keeps Shelf.latch (Shelf.latch.get state) :=
  .waiting rfl (fun _ => rfl) fun _ => .ready rfl

/-- A run of it that has stopped. -/
def paused : Running Shelf (Verdict Nat) :=
  ((pausing.cached Shelf.latch).awaited (0, .empty)).running

/-- Two runs have begun, and the first one has filled the latch. A third one is only called. -/
def overtaking : Program Shelf (Verdict Nat) where
  state := (1, ⟨some (.success 1)⟩)
  runs := [.answered (.success 1), paused,
    .stopped .passed (pausing.cached Shelf.latch).awaited]

abbrev Shelf.Turns : Program Shelf (Verdict Nat) → Program Shelf (Verdict Nat) → Prop :=
  Program.Turns (pausing.cached latch).awaited latch

theorem turns_overtaking : Shelf.Turns ⟨(0, .empty), []⟩ overtaking := by
  have called : Shelf.Turns ⟨(0, .empty), []⟩ _ :=
    (Relation.ReflTransGen.refl.tail .call).tail .call
  have first : Shelf.Turns _ ⟨(0, .empty), [paused, .stopped .passed _]⟩ :=
    called.poll 0 rfl rfl rfl rfl
  have second : Shelf.Turns _ ⟨(0, .empty), [paused, paused]⟩ :=
    first.poll 1 rfl rfl rfl rfl
  have later : Shelf.Turns _ ⟨(1, .empty), [paused, paused]⟩ := second.tail (.other rfl)
  have filled : Shelf.Turns _ ⟨(1, ⟨some (.success 1)⟩), [.answered (.success 1), paused]⟩ :=
    later.poll 0 rfl rfl rfl rfl
  exact filled.tail .call

/-- The second run finds another number, and answers what is kept, as the third one does. -/
theorem turns_overtaken :
    Shelf.Turns overtaking ⟨(2, ⟨some (.success 1)⟩),
      [.answered (.success 1), .answered (.success 1), .answered (.success 1)]⟩ := by
  have later : Shelf.Turns overtaking ⟨(2, ⟨some (.success 1)⟩), overtaking.runs⟩ :=
    .single (.other rfl)
  have raced : Shelf.Turns _ ⟨(2, ⟨some (.success 1)⟩), [.answered (.success 1),
      .answered (.success 1), .stopped .passed (pausing.cached Shelf.latch).awaited]⟩ :=
    later.poll 1 rfl rfl rfl rfl
  exact raced.poll 2 rfl rfl rfl rfl

theorem raced_runs_agree :
    (raced.cell.value = some (.success 2) ∧ ∀ visit : Visit Nat (Verdict Nat),
      (raced.visits.set 2 ⟨.answered (.success 2), 0, none⟩)[2]? = some visit →
        visit.Late (.success 2)) ∧
    (Shelf.latch.get overtaking.state).value = some (.success 1) ∧
      pausing.Gives (.success 1) ∧
      ∃ later, Shelf.Turns overtaking later ∧ later.runs[2]? = some (.answered (.success 1)) ∧
        ∀ run, later.runs[2]? = some run → Late Shelf.latch pausing (.success 1) run := by
  have hit : Step echo raced
      ⟨raced.cell, raced.visits.set 2 ⟨.answered (.success 2), 0, none⟩⟩ :=
    .visit rfl (.hit rfl)
  have session := (runs_agree echo).1 _ _ steps_raced (.single hit)
  have program := (runs_agree pausing).2 Shelf.latch _ _ _ pausing_keeps rfl turns_overtaking
    turns_overtaken
  obtain ⟨-, -, gives⟩ := program.kept (.success 1) rfl
  refine ⟨⟨((session.visits _ List.mem_cons_self).2.2 _ rfl).2 rfl, session.late _ 2 rfl ?_⟩,
    (program.answers 0 _ rfl).2 rfl, gives, _, turns_overtaken, rfl, ?_⟩
  · intro visit same
    cases same
    rfl
  · refine (program.late _ rfl).2 2 fun run same => ?_
    cases same
    rfl

end Deferred.Cached
