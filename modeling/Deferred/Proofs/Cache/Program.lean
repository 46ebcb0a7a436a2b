import Deferred.Future
import Deferred.Proofs.Cache.Session
import Deferred.Verdict

/-! A program that runs a computation any number of times. Its runs are polled in any order, and a
poll goes as far as it can. In between comes other code, which leaves one place of the state alone.
If each poll is a sequence of moves of a visit to the cell at this place, then whatever the program
does is a session. -/

namespace Deferred

variable {σ ρ κ ν : Type}

/-- Where a run has stopped, or how it has ended. -/
inductive Running (σ ρ : Type) where
  | stopped (wait : Wait σ) (resume : σ → Poll σ ρ)
  | answered (result : ρ)
  | panicked
  | dropped

/-- Whether the run has come to nothing. -/
def Running.hasFailed [HasFailure ρ] : Running σ ρ → Bool
  | stopped _ _ => false
  | answered result => HasFailure.isFailure result
  | panicked => true
  | dropped => true

namespace Poll

/-- Where a poll leaves the run. A run that spawns a task goes on in the same poll. -/
def running : Poll σ ρ → Running σ ρ
  | ready result _ => .answered result
  | panic _ _ => .panicked
  | waiting wait resume _ => .stopped wait resume
  | spawn _ rest state => (rest state).running

def state : Poll σ ρ → σ
  | ready _ state => state
  | panic _ state => state
  | waiting _ _ state => state
  | spawn _ rest state => (rest state).state

/-- The computation leaves alone what it finds at the place, here this value. -/
inductive Keeps (place : Place σ κ) : κ → Poll σ ρ → Prop where
  | ready {value result state} (same : place.get state = value) :
      Keeps place value (.ready result state)
  | panic {value payload state} (same : place.get state = value) :
      Keeps place value (.panic payload state)
  | waiting {value wait resume state} (same : place.get state = value)
      (releases : ∀ s, place.get (wait.release s) = place.get s)
      (resumes : ∀ s, Keeps place (place.get s) (resume s)) :
      Keeps place value (.waiting wait resume state)
  | spawn {value child rest state} (same : place.get state = value)
      (resumes : ∀ s, Keeps place (place.get s) (rest s)) :
      Keeps place value (.spawn child rest state)

end Poll

structure Program (σ ρ : Type) where
  state : σ
  runs : List (Running σ ρ)

namespace Program

/-- One turn: a run is begun, polled or dropped, or other code has its turn. -/
inductive Turn (future : Future σ ρ) (place : Place σ κ) (program : Program σ ρ) :
    Program σ ρ → Prop where
  | call : Turn future place program
      { program with runs := program.runs ++ [.stopped .passed future] }
  | poll {index wait resume} (here : program.runs[index]? = some (.stopped wait resume))
      (opens : wait.opens program.state = true) :
      Turn future place program ⟨(resume program.state).state,
        program.runs.set index (resume program.state).running⟩
  | drop {index wait resume} (here : program.runs[index]? = some (.stopped wait resume)) :
      Turn future place program ⟨wait.release program.state, program.runs.set index .dropped⟩
  | other {state} (same : place.get state = place.get program.state) :
      Turn future place program { program with state }

abbrev Turns (future : Future σ ρ) (place : Place σ κ) : Program σ ρ → Program σ ρ → Prop :=
  Relation.ReflTransGen (Turn future place)

/-- A poll with which the program goes on, and where it leaves the program. -/
theorem Turns.poll {future : Future σ ρ} {place : Place σ κ} {start program : Program σ ρ}
    (turns : Turns future place start program) (index : Nat) {wait : Wait σ}
    {resume : σ → Poll σ ρ} {state : σ} {runs : List (Running σ ρ)}
    (here : program.runs[index]? = some (.stopped wait resume))
    (opens : wait.opens program.state = true) (left : (resume program.state).state = state)
    (stood : program.runs.set index (resume program.state).running = runs) :
    Turns future place start ⟨state, runs⟩ := by
  subst left stood
  exact turns.tail (.poll here opens)

/-- By moves of its own the visit comes from this cell to what the run shows in the state. -/
def Comes (place : Place σ κ) (moves : ν → κ → ν → κ → Prop) (shows : ν → Running σ ρ → Prop)
    (visit : ν) (cell : κ) (run : Running σ ρ) (state : σ) : Prop :=
  ∃ after, shows after run ∧ Session.Moves moves visit cell after (place.get state)

/-- A way to show visits as runs, in which polls and drops are moves of a visit. -/
structure Shown (future : Future σ ρ) (place : Place σ κ) (fresh : ν)
    (moves : ν → κ → ν → κ → Prop) (shows : ν → Running σ ρ → Prop) : Prop where
  fresh : shows fresh (.stopped .passed future)
  poll : ∀ visit wait resume state, shows visit (.stopped wait resume) →
    wait.opens state = true → Comes place moves shows visit (place.get state)
      (resume state).running (resume state).state
  drop : ∀ visit wait resume state, shows visit (.stopped wait resume) →
    Comes place moves shows visit (place.get state) .dropped (wait.release state)

theorem Comes.stay {place : Place σ κ} {moves : ν → κ → ν → κ → Prop}
    {shows : ν → Running σ ρ → Prop} {visit : ν} {cell : κ} {run : Running σ ρ} {state : σ}
    (shown : shows visit run) (same : place.get state = cell) :
    Comes place moves shows visit cell run state :=
  ⟨visit, shown, same ▸ .stay⟩

theorem Comes.head {place : Place σ κ} {moves : ν → κ → ν → κ → Prop}
    {shows : ν → Running σ ρ → Prop} {visit after : ν} {cell rest : κ} {run : Running σ ρ}
    {state : σ} (comes : Comes place moves shows after rest run state)
    (step : moves visit cell after rest) : Comes place moves shows visit cell run state := by
  obtain ⟨last, shown, steps⟩ := comes
  exact ⟨last, shown, .trans (Session.Moves.stay.move step) steps⟩

/-- Each run shows the visit at the same position. -/
structure Aligned (shows : ν → Running σ ρ → Prop) (visits : List ν)
    (runs : List (Running σ ρ)) : Prop where
  length : visits.length = runs.length
  shown : ∀ (index : Nat) (visit : ν) (run : Running σ ρ), visits[index]? = some visit →
    runs[index]? = some run → shows visit run

variable {shows : ν → Running σ ρ → Prop} {visits : List ν} {runs : List (Running σ ρ)}

theorem Aligned.exists_visit (aligned : Aligned shows visits runs) {index : Nat}
    {run : Running σ ρ} (here : runs[index]? = some run) :
    ∃ visit, visits[index]? = some visit ∧ shows visit run := by
  have bound := (List.getElem?_eq_some_iff.mp here).1
  rw [← aligned.length] at bound
  have found := List.getElem?_eq_getElem bound
  exact ⟨_, found, aligned.shown index _ run found here⟩

theorem Aligned.exists_run (aligned : Aligned shows visits runs) {index : Nat} {visit : ν}
    (here : visits[index]? = some visit) : ∃ run, runs[index]? = some run ∧ shows visit run := by
  have bound := (List.getElem?_eq_some_iff.mp here).1
  rw [aligned.length] at bound
  have found := List.getElem?_eq_getElem bound
  exact ⟨_, found, aligned.shown index visit _ here found⟩

theorem Aligned.concat (aligned : Aligned shows visits runs) {visit : ν} {run : Running σ ρ}
    (shown : shows visit run) : Aligned shows (visits ++ [visit]) (runs ++ [run]) := by
  refine ⟨?_, fun index other last found there => ?_⟩
  · rw [List.length_append, List.length_append, aligned.length]
    rfl
  · rcases getElem?_concat_eq_some found with found | ⟨rfl, rfl⟩
    · rcases getElem?_concat_eq_some there with there | ⟨rfl, -⟩
      · exact aligned.shown index other last found there
      · have bound := (List.getElem?_eq_some_iff.mp found).1
        rw [aligned.length] at bound
        exact absurd bound (Nat.lt_irrefl _)
    · rcases getElem?_concat_eq_some there with there | ⟨-, rfl⟩
      · have bound := (List.getElem?_eq_some_iff.mp there).1
        rw [aligned.length] at bound
        exact absurd bound (Nat.lt_irrefl _)
      · exact shown

theorem Aligned.set (aligned : Aligned shows visits runs) {index : Nat} {visit : ν}
    {run : Running σ ρ} (shown : shows visit run) :
    Aligned shows (visits.set index visit) (runs.set index run) := by
  refine ⟨?_, fun place other last found there => ?_⟩
  · rw [List.length_set, List.length_set, aligned.length]
  · rcases getElem?_set_eq_some found with ⟨rfl, rfl⟩ | ⟨apart, found⟩
    · rcases getElem?_set_eq_some there with ⟨-, rfl⟩ | ⟨apart, -⟩
      · exact shown
      · exact absurd rfl apart
    · rcases getElem?_set_eq_some there with ⟨same, -⟩ | ⟨-, there⟩
      · exact absurd same apart
      · exact aligned.shown place other last found there

variable {future : Future σ ρ} {place : Place σ κ} {fresh : ν} {moves : ν → κ → ν → κ → Prop}
  {program next : Program σ ρ}

theorem Shown.turn (shown : Shown future place fresh moves shows)
    (turn : Turn future place program next) (aligned : Aligned shows visits program.runs) :
    ∃ after, Aligned shows after next.runs ∧ Session.Steps fresh moves
      ⟨place.get program.state, visits⟩ ⟨place.get next.state, after⟩ := by
  cases turn with
  | call => exact ⟨_, aligned.concat shown.fresh, .single .call⟩
  | @poll index wait resume here opens =>
    obtain ⟨visit, found, shows⟩ := aligned.exists_visit here
    obtain ⟨after, later, steps⟩ := shown.poll visit wait resume program.state shows opens
    have there : (Session.mk (place.get program.state) visits).visits[index]? = some visit := found
    exact ⟨_, aligned.set later, Session.Steps.of_moves there steps⟩
  | @drop index wait resume here =>
    obtain ⟨visit, found, shows⟩ := aligned.exists_visit here
    obtain ⟨after, later, steps⟩ := shown.drop visit wait resume program.state shows
    have there : (Session.mk (place.get program.state) visits).visits[index]? = some visit := found
    exact ⟨_, aligned.set later, Session.Steps.of_moves there steps⟩
  | other same =>
    refine ⟨visits, aligned, ?_⟩
    rw [same]

theorem Shown.turns_from (shown : Shown future place fresh moves shows)
    (turns : Turns future place program next) (aligned : Aligned shows visits program.runs) :
    ∃ after, Aligned shows after next.runs ∧ Session.Steps fresh moves
      ⟨place.get program.state, visits⟩ ⟨place.get next.state, after⟩ := by
  induction turns with
  | refl => exact ⟨visits, aligned, .refl⟩
  | tail _ turn ih =>
    obtain ⟨middle, aligned, steps⟩ := ih
    obtain ⟨after, later, more⟩ := shown.turn turn aligned
    exact ⟨after, later, steps.trans more⟩

/-- Whatever the order of its turns, the program does what some session does. -/
theorem Shown.turns (shown : Shown future place fresh moves shows) {start : σ}
    (turns : Turns future place ⟨start, []⟩ program) :
    ∃ visits, Aligned shows visits program.runs ∧ Session.Steps fresh moves
      ⟨place.get start, []⟩ ⟨place.get program.state, visits⟩ :=
  shown.turns_from turns ⟨rfl, nofun⟩

/-! ### Answers -/

section answers

variable [HasFailure ρ] {value : σ → Option ρ} {gives : ρ → Prop} {later : Program σ ρ}

/-- A run that fails was given its failure, and every other answer is the value that is kept. -/
def Answers (value : σ → Option ρ) (gives : ρ → Prop) (program : Program σ ρ) : Prop :=
  ∀ (index : Nat) (result : ρ), program.runs[index]? = some (.answered result) →
    (HasFailure.isFailure result = true → gives result) ∧
    (HasFailure.isFailure result = false → value program.state = some result)

/-- What the runs of a program answer, now and later. -/
structure Agrees (value : σ → Option ρ) (gives : ρ → Prop) (program later : Program σ ρ) :
    Prop where
  /-- The value that is kept stays, and is the result of an invocation that did not fail. -/
  kept : ∀ kept, value program.state = some kept →
    value later.state = some kept ∧ HasFailure.isFailure kept = false ∧ gives kept
  answers : program.Answers value gives
  agree : ∀ (index other : Nat) (first second : ρ),
    program.runs[index]? = some (.answered first) → HasFailure.isFailure first = false →
      later.runs[other]? = some (.answered second) → HasFailure.isFailure second = false →
        first = second

/-- All answers that are no failures agree if each is the value and the value stays. -/
theorem Agrees.of_answers
    (kept : ∀ kept, value program.state = some kept →
      value later.state = some kept ∧ HasFailure.isFailure kept = false ∧ gives kept)
    (answers : program.Answers value gives) (afterwards : later.Answers value gives) :
    program.Agrees value gives later := by
  refine ⟨kept, answers, fun index other first second answered good answeredToo goodToo => ?_⟩
  have early := (kept first ((answers index first answered).2 good)).1
  have late := (afterwards other second answeredToo).2 goodToo
  exact Option.some.inj (early.symm.trans late)

end answers

end Program
end Deferred
