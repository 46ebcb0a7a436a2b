import Mathlib.Data.List.Forall2
import Deferred.Proofs.Cache.Program
import Deferred.Proofs.Pace.Private

/-! Programs that run one action any number of times, as a list of moves: a run is called, polled or
dropped, or other code has its turn. What is seen of a program is the part of the state that other
code may touch, how each run stands, and the tasks that the runs have spawned. If two actions with
cells of their own are in step, then nobody can tell from their programs which one it is. -/

namespace Deferred

variable {σ κ ι ρ τ : Type}

inductive Move (σ : Type) where
  | call
  | poll (index : Nat)
  | drop (index : Nat)
  | other (turn : σ → σ)

/-- The move in a program with a cell that other code cannot reach. -/
def Move.outside : Move σ → Move (σ × κ)
  | call => .call
  | poll index => .poll index
  | drop index => .drop index
  | other turn => .other (Deferred.outside turn)

/-- How a run stands: at a wait, which the state may open, or at an end. -/
inductive Standing (ρ : Type) where
  | waits (deadline : Option Nat) (opens : Bool)
  | answered (result : ρ)
  | panicked
  | dropped

/-- A program with all runs that have been called and all tasks that they have spawned. -/
structure Scene (σ ρ : Type) where
  state : σ
  runs : List (Running σ ρ)
  tasks : List (σ → Task σ)

/-- What a move leaves of a run, the tasks that it spawns, and the state. -/
abbrev Outcome (σ ρ : Type) : Type :=
  Running σ ρ × List (σ → Task σ) × σ

/-- The tasks that are spawned before the computation stops or ends. -/
def Poll.spawned : Poll σ ρ → List (σ → Task σ)
  | spawn child rest state => child :: (rest state).spawned
  | ready _ _ => []
  | panic _ _ => []
  | waiting _ _ _ => []

namespace Running

/-- A poll, which does nothing while the run has to wait and when it is over. -/
def poll : Running σ ρ → σ → Outcome σ ρ
  | stopped wait resume, state =>
      if wait.opens state then
        ((resume state).running, (resume state).spawned, (resume state).state)
      else (stopped wait resume, [], state)
  | ended, state => (ended, [], state)

def drop : Running σ ρ → σ → Outcome σ ρ
  | stopped wait _, state => (dropped, [], wait.release state)
  | ended, state => (ended, [], state)

def standing (state : σ) : Running σ ρ → Standing ρ
  | stopped wait _ => .waits wait.deadline (wait.opens state)
  | answered result => .answered result
  | panicked => .panicked
  | dropped => .dropped

end Running

namespace Scene

def opened (state : σ) : Scene σ ρ := ⟨state, [], []⟩

def call (action : Action σ ρ) (scene : Scene σ ρ) : Scene σ ρ :=
  match action.call scene.state with
  | (.ok future, state) => { scene with state, runs := scene.runs ++ [.stopped .passed future] }
  | (.error _, state) => { scene with state, runs := scene.runs ++ [.panicked] }

/-- Does something to the run of the given number, if there is one. -/
def change (index : Nat) (act : Running σ ρ → σ → Outcome σ ρ) (scene : Scene σ ρ) : Scene σ ρ :=
  match scene.runs[index]? with
  | some run =>
      let (after, spawned, state) := act run scene.state
      ⟨state, scene.runs.set index after, scene.tasks ++ spawned⟩
  | none => scene

def move (action : Action σ ρ) (scene : Scene σ ρ) : Move σ → Scene σ ρ
  | .call => scene.call action
  | .poll index => scene.change index Running.poll
  | .drop index => scene.change index Running.drop
  | .other turn => { scene with state := turn scene.state }

def play (action : Action σ ρ) (scene : Scene σ ρ) (moves : List (Move σ)) : Scene σ ρ :=
  moves.foldl (move action) scene

def standings (scene : Scene σ ρ) : List (Standing ρ) :=
  scene.runs.map (Running.standing scene.state)

end Scene

/-- Runs that stand at corresponding points. -/
inductive Running.InStep (pace : Pace σ τ) (ends : pace.Ends ρ ρ) :
    Running σ ρ → Running τ ρ → Prop where
  | stopped {wait other resume next} (waits : pace.waits wait other)
      (resumes : ∀ i s t, pace.alike i s t → wait.opens s = true →
        (resume s).InStep pace ends i (next t)) :
      InStep pace ends (.stopped wait resume) (.stopped other next)
  | answered {result} : InStep pace ends (.answered result) (.answered result)
  | panicked : InStep pace ends .panicked .panicked
  | dropped : InStep pace ends .dropped .dropped

/-- Two lists have entries at the same positions, and stay related if two such entries change. -/
theorem forall₂_getElem? {α β : Type} {related : α → β → Prop} {first : List α} {second : List β}
    (all : List.Forall₂ related first second) (index : Nat) :
    (first[index]? = none ∧ second[index]? = none) ∨
      ∃ a b, first[index]? = some a ∧ second[index]? = some b ∧ related a b ∧
        ∀ {c d}, related c d → List.Forall₂ related (first.set index c) (second.set index d) := by
  induction all generalizing index with
  | nil => exact .inl ⟨rfl, rfl⟩
  | @cons a b _ _ head tail ih =>
    cases index with
    | zero => exact .inr ⟨a, b, rfl, rfl, head, fun changed => .cons changed tail⟩
    | succ index =>
      rcases ih index with none | ⟨a, b, here, there, same, changes⟩
      · exact .inl none
      · exact .inr ⟨a, b, here, there, same, fun changed => .cons head (changes changed)⟩

section
variable {alike : σ → τ → Prop} {tasks : (σ → Task σ) → (τ → Task τ) → Prop}

/-- Two moves leave corresponding runs in states that are alike, and spawn corresponding tasks. -/
structure Outcome.InStep (alike : σ → τ → Prop) (tasks : (σ → Task σ) → (τ → Task τ) → Prop)
    (outcome : Outcome σ ρ) (other : Outcome τ ρ) : Prop where
  run : outcome.1.InStep (.strict alike alike tasks) (Pace.same _) other.1
  spawned : List.Forall₂ tasks outcome.2.1 other.2.1
  state : alike outcome.2.2 other.2.2

theorem Poll.InStep.outcome {i : (Pace.strict alike alike tasks).Index} {first : Poll σ ρ}
    {second : Poll τ ρ} (inStep : first.InStep (.strict alike alike tasks) (Pace.same _) i second) :
    Outcome.InStep alike tasks (first.running, first.spawned, first.state)
      (second.running, second.spawned, second.state) := by
  induction inStep with
  | ready ended =>
    obtain ⟨⟨⟩, alike⟩ := ended
    exact ⟨.answered, .nil, alike⟩
  | panic ended => exact ⟨.panicked, .nil, ended.2⟩
  | waiting alike waits resumes => exact ⟨.stopped waits resumes, .nil, alike⟩
  | spawn same _ ih => exact ⟨ih.run, .cons same ih.spawned, ih.state⟩
  | excused excused => exact (excused.nowhere fun _ => id).elim
  | behind late => exact late.elim
  | ahead slow => exact slow.elim

namespace Running.InStep

variable {run : Running σ ρ} {other : Running τ ρ} {s : σ} {t : τ}
  (inStep : run.InStep (.strict alike alike tasks) (Pace.same _) other) (states : alike s t)
include inStep states

theorem poll : Outcome.InStep alike tasks (run.poll s) (other.poll t) := by
  cases inStep with
  | stopped waits resumes =>
    have same := waits.opens s t states
    unfold Running.poll
    dsimp only
    rw [← same]
    split
    next opens => exact (resumes () s t states opens).outcome
    next => exact ⟨.stopped waits resumes, .nil, states⟩
  | answered => exact ⟨.answered, .nil, states⟩
  | panicked => exact ⟨.panicked, .nil, states⟩
  | dropped => exact ⟨.dropped, .nil, states⟩

theorem drop : Outcome.InStep alike tasks (run.drop s) (other.drop t) := by
  cases inStep with
  | stopped waits => exact ⟨.dropped, .nil, waits.releases s t states⟩
  | answered => exact ⟨.answered, .nil, states⟩
  | panicked => exact ⟨.panicked, .nil, states⟩
  | dropped => exact ⟨.dropped, .nil, states⟩

theorem standing : run.standing s = other.standing t := by
  cases inStep with
  | stopped waits => simp only [Running.standing, waits.deadline, waits.opens s t states]
  | answered | panicked | dropped => rfl

end Running.InStep

/-- Programs in states that are alike, run by run at corresponding points. -/
structure Scene.InStep (alike : σ → τ → Prop) (tasks : (σ → Task σ) → (τ → Task τ) → Prop)
    (scene : Scene σ ρ) (other : Scene τ ρ) : Prop where
  state : alike scene.state other.state
  runs : List.Forall₂ (Running.InStep (.strict alike alike tasks) (Pace.same _))
    scene.runs other.runs
  tasks : List.Forall₂ tasks scene.tasks other.tasks

namespace Scene.InStep

variable {scene : Scene σ ρ} {other : Scene τ ρ}

theorem call (inStep : scene.InStep alike tasks other) {future : Future σ ρ}
    {mate : Future τ ρ} (futures : ∀ s t, alike s t →
      (future s).InStep (.strict alike alike tasks) (Pace.same _) () (mate t)) :
    (scene.call (.lazily future)).InStep alike tasks (other.call (.lazily mate)) := by
  have fresh : Running.InStep (.strict alike alike tasks) (Pace.same _)
      (.stopped .passed future) (.stopped .passed mate) := by
    refine .stopped ⟨rfl, fun _ _ _ => rfl, fun _ _ => id⟩ ?_
    intro _ s t states _
    exact futures s t states
  exact ⟨inStep.state, List.rel_append inStep.runs (.cons fresh .nil), inStep.tasks⟩

theorem change (inStep : scene.InStep alike tasks other) (index : Nat)
    {act : Running σ ρ → σ → Outcome σ ρ} {deed : Running τ ρ → τ → Outcome τ ρ}
    (does : ∀ {run mate s t}, run.InStep (.strict alike alike tasks) (Pace.same _) mate →
      alike s t → Outcome.InStep alike tasks (act run s) (deed mate t)) :
    (scene.change index act).InStep alike tasks (other.change index deed) := by
  unfold Scene.change
  rcases forall₂_getElem? inStep.runs index with
    ⟨here, there⟩ | ⟨run, mate, here, there, same, changes⟩
  · rw [here, there]
    exact inStep
  · rw [here, there]
    have done := does same inStep.state
    exact ⟨done.state, changes done.run, List.rel_append inStep.tasks done.spawned⟩

theorem standings (inStep : scene.InStep alike tasks other) :
    scene.standings = other.standings := by
  have same : List.Forall₂ Eq scene.standings other.standings :=
    List.rel_map (fun _ _ run => run.standing inStep.state) inStep.runs
  rwa [List.forall₂_eq_eq_eq] at same

end Scene.InStep

end

section
variable {cells : κ → ι → Prop} {first : Future (σ × κ) ρ} {second : Future (σ × ι) ρ}
  (futures : ∀ s t, SameBeside cells s t →
    (first s).InStep (.beside σ cells cells) (Pace.same _) () (second t))
include futures

theorem Scene.InStep.move {scene : Scene (σ × κ) ρ} {other : Scene (σ × ι) ρ}
    (inStep : scene.InStep (SameBeside cells) SameTask other) (move : Move σ) :
    (scene.move (.lazily first) move.outside).InStep (SameBeside cells) SameTask
      (other.move (.lazily second) move.outside) := by
  cases move with
  | call => exact inStep.call futures
  | poll index => exact inStep.change index Running.InStep.poll
  | drop index => exact inStep.change index Running.InStep.drop
  | other turn =>
    obtain ⟨⟨same, alike⟩, runs, spawned⟩ := inStep
    exact ⟨⟨congrArg turn same, alike⟩, runs, spawned⟩

/-- Whatever the moves, the programs of two actions with corresponding cells stay in step. -/
theorem Scene.InStep.play (moves : List (Move σ)) {scene : Scene (σ × κ) ρ}
    {other : Scene (σ × ι) ρ} (inStep : scene.InStep (SameBeside cells) SameTask other) :
    (scene.play (.lazily first) (moves.map .outside)).InStep (SameBeside cells) SameTask
      (other.play (.lazily second) (moves.map .outside)) := by
  induction moves generalizing scene other with
  | nil => exact inStep
  | cons move moves ih => exact ih (inStep.move futures move)

/-- All that is seen of two programs with a cell each is the same. -/
structure Scene.Alike (scene : Scene (σ × κ) ρ) (other : Scene (σ × ι) ρ) : Prop where
  state : scene.state.1 = other.state.1
  standings : scene.standings = other.standings
  tasks : List.Forall₂ SameTask scene.tasks other.tasks

theorem Scene.play_alike {start : σ} {c : κ} {d : ι} (alike : cells c d) (moves : List (Move σ)) :
    (play (.lazily first) (.opened (start, c)) (moves.map .outside)).Alike
      (play (.lazily second) (.opened (start, d)) (moves.map .outside)) := by
  have begins : InStep (SameBeside cells) SameTask (.opened (start, c)) (.opened (start, d) :
      Scene (σ × ι) ρ) := ⟨⟨rfl, alike⟩, .nil, .nil⟩
  have played := begins.play futures moves
  exact ⟨played.state.1, played.standings, played.tasks⟩

end

end Deferred
