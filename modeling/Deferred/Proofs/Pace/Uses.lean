import Deferred.Proofs.Pace.Programs

/-! Programs that use an action again and again, one run at a time. A run is polled after each turn
of other code, and is dropped where it has come to if it is not over when the next one begins. Two
actions that are in step while they run, and have left the same behind each time they are over, show
the same at every moment. What they leave behind may depend on how the runs so far have ended. -/

namespace Deferred

variable {σ τ ρ : Type}

/-- The run of this number is called, and then polled after each of these turns of other code. -/
def Move.use (index : Nat) (turns : List (σ → σ)) : List (Move σ) :=
  .call :: turns.flatMap fun turn => [.other turn, .poll index]

/-- Uses one after the other, which begin with the run of this number. -/
def Move.uses : Nat → List (List (σ → σ)) → List (Move σ)
  | _, [] => []
  | index, turns :: later => use index turns ++ .drop index :: uses (index + 1) later

/-- Complete uses, and one more that may still be going on. -/
def Move.course (uses : List (List (σ → σ))) (turns : List (σ → σ)) : List (Move σ) :=
  Move.uses 0 uses ++ use uses.length turns

/-- Where the computation stops, it does so in a state like this. -/
def Poll.StopsIn (allowed : σ → Prop) : Poll σ ρ → Prop
  | ready _ _ => True
  | panic _ _ => True
  | waiting _ _ state => allowed state
  | spawn _ rest state => (rest state).StopsIn allowed

theorem Poll.HaltsIn.not_stopsIn {allowed there : σ → Prop} {poll : Poll σ ρ}
    (apart : ∀ state, there state → ¬allowed state) (halts : poll.HaltsIn there) :
    ¬poll.StopsIn allowed := by
  induction poll with
  | ready | panic => exact False.elim halts
  | waiting _ _ state => exact apart state halts
  | spawn _ _ state ih => exact ih state halts

def Running.StopsIn (allowed : σ → Prop) (state : σ) : Running σ ρ → Prop
  | stopped wait resume => wait.opens state = true → (resume state).StopsIn allowed
  | answered _ => True
  | panicked => True
  | dropped => True

def Move.StopsIn (allowed : σ → Prop) (scene : Scene σ ρ) : Move σ → Prop
  | poll index => ∀ run ∈ scene.runs[index]?, run.StopsIn allowed scene.state
  | call => True
  | drop _ => True
  | other _ => True

/-- All runs that stop in the course of these moves do so in states like this. -/
def Scene.StopsIn (allowed : σ → Prop) (action : Action σ ρ) : Scene σ ρ → List (Move σ) → Prop
  | _, [] => True
  | scene, move :: moves =>
      move.StopsIn allowed scene ∧ (scene.move action move).StopsIn allowed action moves

section
variable {allowed : σ → Prop} (all : ∀ state, allowed state)
include all

theorem Poll.stopsIn_of_forall (poll : Poll σ ρ) : poll.StopsIn allowed := by
  induction poll with
  | ready | panic => trivial
  | waiting _ _ state => exact all state
  | spawn _ _ state ih => exact ih state

theorem Scene.stopsIn_of_forall (action : Action σ ρ) (scene : Scene σ ρ) (moves : List (Move σ)) :
    scene.StopsIn allowed action moves := by
  induction moves generalizing scene with
  | nil => trivial
  | cons move moves ih =>
    refine ⟨?_, ih _⟩
    cases move with
    | poll index =>
      rintro (⟨wait, resume⟩ | _ | _ | _) _
      · exact fun _ => Poll.stopsIn_of_forall all (resume scene.state)
      all_goals trivial
    | call | drop | other => trivial

end

namespace Running

/-- How a run is over that has come to this end. -/
def ended : Except Payload ρ → Running σ ρ
  | .ok result => .answered result
  | .error _ => .panicked

/-- Runs that are over in the same way. -/
inductive Over : Running σ ρ → Running τ ρ → Prop where
  | answered {result} : Over (.answered result) (.answered result)
  | panicked : Over .panicked .panicked
  | dropped : Over .dropped .dropped

theorem Over.standing {run : Running σ ρ} {mate : Running τ ρ} (ended : run.Over mate) (s : σ)
    (t : τ) : run.standing s = mate.standing t := by
  cases ended <;> rfl

end Running

/-! ### The laws of uses -/

/-- Both end in the same way and leave behind what belongs to this end. -/
abbrev Pace.leaving (pace : Pace σ τ) (left : Running σ ρ → σ → τ → Prop) : pace.Ends ρ ρ :=
  fun _ a b s t => a = b ∧ left (.ended a) s t

/-- A pace that leaves nothing to choose: runs stop at the same points for as long as the first one
stops in allowed states. -/
structure Pace.Orderly (pace : Pace σ τ) (tasks : (σ → Task σ) → (τ → Task τ) → Prop)
    (dropped : σ → τ → Prop) (allowed : σ → Prop) : Prop where
  deadline : ∀ {wait other}, pace.waits wait other → wait.deadline = other.deadline
  opens : ∀ {wait other i s t}, pace.waits wait other → pace.alike i s t →
    wait.opens s = other.opens t
  releases : ∀ {wait other i s t}, pace.waits wait other → pace.alike i s t →
    dropped (wait.release s) (other.release t)
  tasks : ∀ {child task}, pace.tasks child task → tasks child task
  excused : ∀ {i s}, pace.excused i s → ¬allowed s
  late : ∀ {wait}, ¬pace.late wait
  slow : ∀ {wait}, ¬pace.slow wait

/-- What two programs have in common: between the uses, as far as the runs so far have brought it,
and in the course of the next use. The pace of a use is one of several. -/
structure Usage (σ τ ρ : Type) where
  Kind : Type
  left : List (Running σ ρ) → σ → τ → Prop
  pace : List (Running σ ρ) → Kind → Pace σ τ
  tasks : (σ → Task σ) → (τ → Task τ) → Prop
  allowed : σ → Prop

namespace Usage

variable (usage : Usage σ τ ρ)

abbrev leaving (past : List (Running σ ρ)) (kind : usage.Kind) : (usage.pace past kind).Ends ρ ρ :=
  (usage.pace past kind).leaving fun run => usage.left (past ++ [run])

structure Lawful (first : Future σ ρ) (second : Future τ ρ) : Prop where
  orderly : ∀ past kind, (usage.pace past kind).Orderly usage.tasks
    (usage.left (past ++ [.dropped])) usage.allowed
  begins : ∀ past s t, usage.left past s t → ∃ kind i,
    (first s).InStep (usage.pace past kind) (usage.leaving past kind) i (second t)

/-- Turns of other code, for which both programs are the same. -/
structure Turns (turn : σ → σ) (mate : τ → τ) : Prop where
  alike : ∀ past kind i s t, (usage.pace past kind).alike i s t →
    ∃ j, (usage.pace past kind).alike j (turn s) (mate t)
  left : ∀ past s t, usage.left past s t → usage.left past (turn s) (mate t)

/-- How a run stands that has been polled: it waits or it is over. -/
inductive Begun (past : List (Running σ ρ)) : Running σ ρ → σ → Running τ ρ → τ → Prop where
  | waits {kind i wait other resume next s t} (alike : (usage.pace past kind).alike i s t)
      (waits : (usage.pace past kind).waits wait other)
      (resumes : ∀ i s t, (usage.pace past kind).alike i s t → wait.opens s = true →
        (resume s).InStep (usage.pace past kind) (usage.leaving past kind) i (next t)) :
      Begun past (.stopped wait resume) s (.stopped other next) t
  | done {run mate s t} (ended : run.Over mate) (left : usage.left (past ++ [run]) s t) :
      Begun past run s mate t

/-- How the last run stands, which may not have been polled yet. -/
inductive Stands (first : Future σ ρ) (second : Future τ ρ) (past : List (Running σ ρ)) :
    Running σ ρ → σ → Running τ ρ → τ → Prop where
  | fresh {s t} (left : usage.left past s t) :
      Stands first second past (.stopped .passed first) s (.stopped .passed second) t
  | begun {run s mate t} (begun : usage.Begun past run s mate t) :
      Stands first second past run s mate t

/-- Between two uses. -/
structure Rests (scene : Scene σ ρ) (other : Scene τ ρ) : Prop where
  left : usage.left scene.runs scene.state other.state
  runs : List.Forall₂ Running.Over scene.runs other.runs
  tasks : List.Forall₂ usage.tasks scene.tasks other.tasks

/-- In the course of a use: these runs are over, and the last ones stand like this. -/
structure During (stands : Running σ ρ → σ → Running τ ρ → τ → Prop)
    (past : List (Running σ ρ)) (before : List (Running τ ρ)) (scene : Scene σ ρ)
    (other : Scene τ ρ) : Prop where
  last : ∃ run mate, scene.runs = past ++ [run] ∧ other.runs = before ++ [mate] ∧
    stands run scene.state mate other.state
  past : List.Forall₂ Running.Over past before
  tasks : List.Forall₂ usage.tasks scene.tasks other.tasks

variable {usage} {first : Future σ ρ} {second : Future τ ρ} (lawful : usage.Lawful first second)

/-! ### Runs -/

section
variable {past : List (Running σ ρ)} {run : Running σ ρ} {mate : Running τ ρ} {s : σ} {t : τ}
include lawful

theorem begun_of_inStep {kind : usage.Kind} {i : (usage.pace past kind).Index} {poll : Poll σ ρ}
    {other : Poll τ ρ}
    (inStep : poll.InStep (usage.pace past kind) (usage.leaving past kind) i other)
    (stops : poll.StopsIn usage.allowed) :
    usage.Begun past poll.running poll.state other.running other.state ∧
      List.Forall₂ usage.tasks poll.spawned other.spawned := by
  have orderly := lawful.orderly past kind
  induction inStep with
  | ready ended =>
    obtain ⟨⟨⟩, left⟩ := ended
    exact ⟨.done .answered left, .nil⟩
  | panic ended => exact ⟨.done .panicked ended.2, .nil⟩
  | waiting alike waits resumes => exact ⟨.waits alike waits resumes, .nil⟩
  | spawn same _ ih =>
    obtain ⟨begun, spawned⟩ := ih stops
    exact ⟨begun, .cons (orderly.tasks same) spawned⟩
  | excused excused => exact absurd stops (excused.not_stopsIn fun _ => orderly.excused)
  | behind late => exact absurd late orderly.late
  | ahead slow => exact absurd slow orderly.slow

theorem Stands.standing (stands : usage.Stands first second past run s mate t) :
    run.standing s = mate.standing t := by
  cases stands with
  | fresh => rfl
  | begun begun =>
    cases begun with
    | @waits kind _ _ _ _ _ _ _ alike waits =>
      have orderly := lawful.orderly past kind
      simp only [Running.standing, orderly.deadline waits, orderly.opens waits alike]
    | done ended => exact ended.standing s t

/-- A poll, of a run that may be over or may have to wait on. -/
theorem Stands.poll (stands : usage.Stands first second past run s mate t)
    (stops : run.StopsIn usage.allowed s) :
    usage.Begun past (run.poll s).1 (run.poll s).2.2 (mate.poll t).1 (mate.poll t).2.2 ∧
      List.Forall₂ usage.tasks (run.poll s).2.1 (mate.poll t).2.1 := by
  cases stands with
  | fresh left =>
    obtain ⟨_, _, inStep⟩ := lawful.begins past s t left
    exact begun_of_inStep lawful inStep (stops rfl)
  | begun begun =>
    cases begun with
    | @waits kind i _ _ _ _ _ _ alike waits resumes =>
      have same := (lawful.orderly past kind).opens waits alike
      unfold Running.poll
      dsimp only
      rw [← same]
      split
      next opens => exact begun_of_inStep lawful (resumes i s t alike opens) (stops opens)
      next => exact ⟨.waits alike waits resumes, .nil⟩
    | done ended left =>
      cases ended with
      | answered => exact ⟨.done .answered left, .nil⟩
      | panicked => exact ⟨.done .panicked left, .nil⟩
      | dropped => exact ⟨.done .dropped left, .nil⟩

theorem Begun.drop (begun : usage.Begun past run s mate t) :
    (run.drop s).1.Over (mate.drop t).1 ∧ (run.drop s).2.1 = [] ∧ (mate.drop t).2.1 = [] ∧
      usage.left (past ++ [(run.drop s).1]) (run.drop s).2.2 (mate.drop t).2.2 := by
  cases begun with
  | @waits kind _ _ _ _ _ _ _ alike waits =>
    exact ⟨.dropped, rfl, rfl, (lawful.orderly past kind).releases waits alike⟩
  | done ended left =>
    cases ended with
    | answered => exact ⟨.answered, rfl, rfl, left⟩
    | panicked => exact ⟨.panicked, rfl, rfl, left⟩
    | dropped => exact ⟨.dropped, rfl, rfl, left⟩

end

theorem Stands.turn {past : List (Running σ ρ)} {run : Running σ ρ} {mate : Running τ ρ} {s : σ}
    {t : τ} {turn : σ → σ} {other : τ → τ} (same : usage.Turns turn other)
    (stands : usage.Stands first second past run s mate t) :
    usage.Stands first second past run (turn s) mate (other t) := by
  cases stands with
  | fresh left => exact .fresh (same.left past s t left)
  | begun begun =>
    cases begun with
    | waits alike waits resumes =>
      obtain ⟨_, alike⟩ := same.alike _ _ _ _ _ alike
      exact .begun (.waits alike waits resumes)
    | done ended left => exact .begun (.done ended (same.left _ s t left))

/-! ### Scenes -/

section
variable {scene : Scene σ ρ} {past : List (Running σ ρ)}

theorem getElem?_last {run : Running σ ρ} (runs : scene.runs = past ++ [run]) :
    scene.runs[past.length]? = some run := by
  rw [runs]
  exact List.getElem?_concat_length

/-- The last run changes, and the others stay as they are. -/
theorem change_last {run : Running σ ρ} (runs : scene.runs = past ++ [run])
    (act : Running σ ρ → σ → Outcome σ ρ) :
    scene.change past.length act =
      ⟨(act run scene.state).2.2, past ++ [(act run scene.state).1],
        scene.tasks ++ (act run scene.state).2.1⟩ := by
  unfold Scene.change
  rw [getElem?_last runs]
  dsimp only
  rw [runs, List.set_append_right _ _ (Nat.le_refl _), Nat.sub_self, List.set_cons_zero]

theorem play_append (action : Action σ ρ) (scene : Scene σ ρ) (moves later : List (Move σ)) :
    scene.play action (moves ++ later) = (scene.play action moves).play action later :=
  List.foldl_append

theorem stopsIn_append {allowed : σ → Prop} {action : Action σ ρ} {moves later : List (Move σ)} :
    scene.StopsIn allowed action (moves ++ later) ↔
      scene.StopsIn allowed action moves ∧
        (scene.play action moves).StopsIn allowed action later := by
  induction moves generalizing scene with
  | nil => exact ⟨fun stops => ⟨trivial, stops⟩, And.right⟩
  | cons move moves ih => exact (and_congr_right fun _ => ih).trans and_assoc.symm

end

variable {scene : Scene σ ρ} {other : Scene τ ρ} {past : List (Running σ ρ)}
  {before : List (Running τ ρ)} {turns : List (σ → σ)} {mates : List (τ → τ)}

theorem Rests.call (rests : usage.Rests scene other) :
    usage.During (usage.Stands first second scene.runs) scene.runs other.runs
      (scene.call (.lazily first)) (other.call (.lazily second)) where
  last := ⟨_, _, rfl, rfl, .fresh rests.left⟩
  past := rests.runs
  tasks := rests.tasks

theorem During.begun
    (during : usage.During (usage.Begun past) past before scene other) :
    usage.During (usage.Stands first second past) past before scene other := by
  obtain ⟨⟨run, last, runs, mates, begun⟩, past, tasks⟩ := during
  exact ⟨⟨run, last, runs, mates, .begun begun⟩, past, tasks⟩

theorem During.turn {turn : σ → σ} {mate : τ → τ} (same : usage.Turns turn mate)
    (during : usage.During (usage.Stands first second past) past before scene other) :
    usage.During (usage.Stands first second past) past before
      { scene with state := turn scene.state } { other with state := mate other.state } := by
  obtain ⟨⟨run, last, runs, mates, stands⟩, past, tasks⟩ := during
  exact ⟨⟨run, last, runs, mates, stands.turn same⟩, past, tasks⟩

theorem During.length_drop {stands : Running σ ρ → σ → Running τ ρ → τ → Prop}
    (during : usage.During stands past before scene other) :
    (scene.change past.length Running.drop).runs.length = past.length + 1 := by
  obtain ⟨⟨run, last, runs, -, -⟩, -, -⟩ := during
  rw [change_last runs]
  exact List.length_append

/-- A run that is dropped before it has been polled. -/
theorem Rests.pass (first : Future σ ρ) (second : Future τ ρ) (rests : usage.Rests scene other)
    (unpolled : usage.left (scene.runs ++ [.dropped]) scene.state other.state) :
    usage.Rests ((scene.call (.lazily first)).change scene.runs.length Running.drop)
      ((other.call (.lazily second)).change other.runs.length Running.drop) := by
  have runs : (scene.call (.lazily first)).runs = scene.runs ++ [.stopped .passed first] := rfl
  have mates : (other.call (.lazily second)).runs = other.runs ++ [.stopped .passed second] := rfl
  rw [change_last runs, change_last mates]
  refine ⟨unpolled, List.rel_append rests.runs (.cons .dropped .nil), ?_⟩
  exact List.rel_append rests.tasks .nil

include lawful

theorem During.poll (during : usage.During (usage.Stands first second past) past before scene other)
    (stops : (Move.poll past.length).StopsIn usage.allowed scene) :
    usage.During (usage.Begun past) past before (scene.change past.length Running.poll)
      (other.change before.length Running.poll) := by
  obtain ⟨⟨run, last, runs, mates, stands⟩, ended, tasks⟩ := during
  obtain ⟨begun, spawned⟩ := stands.poll lawful (stops run (getElem?_last runs))
  rw [change_last runs, change_last mates]
  exact ⟨⟨_, _, rfl, rfl, begun⟩, ended, List.rel_append tasks spawned⟩

theorem During.polls (during : usage.During (usage.Begun past) past before scene other)
    (same : List.Forall₂ usage.Turns turns mates)
    (stops : scene.StopsIn usage.allowed (.lazily first)
      (turns.flatMap fun turn => [.other turn, .poll past.length])) :
    usage.During (usage.Begun past) past before
      (scene.play (.lazily first) (turns.flatMap fun turn => [.other turn, .poll past.length]))
      (other.play (.lazily second)
        (mates.flatMap fun turn => [.other turn, .poll before.length])) := by
  induction same generalizing scene other with
  | nil => exact during
  | cons corresponds _ ih =>
    obtain ⟨-, stop, stops⟩ := stops
    have turned : usage.During (usage.Stands first second past) past before _ _ :=
      during.begun.turn corresponds
    exact ih (turned.poll lawful stop) stops

/-- A run that has been polled once and then any number of times. -/
theorem Rests.begin (rests : usage.Rests scene other) {turn : σ → σ} {mate : τ → τ}
    (corresponds : usage.Turns turn mate) (same : List.Forall₂ usage.Turns turns mates)
    (stops : scene.StopsIn usage.allowed (.lazily first)
      (Move.use scene.runs.length (turn :: turns))) :
    usage.During (usage.Begun scene.runs) scene.runs other.runs
      (scene.play (.lazily first) (Move.use scene.runs.length (turn :: turns)))
      (other.play (.lazily second) (Move.use other.runs.length (mate :: mates))) := by
  obtain ⟨-, -, stop, stops⟩ := stops
  exact ((rests.call.turn corresponds).poll lawful stop).polls lawful same stops

theorem Rests.use (rests : usage.Rests scene other) (same : List.Forall₂ usage.Turns turns mates)
    (stops : scene.StopsIn usage.allowed (.lazily first) (Move.use scene.runs.length turns)) :
    usage.During (usage.Stands first second scene.runs) scene.runs other.runs
      (scene.play (.lazily first) (Move.use scene.runs.length turns))
      (other.play (.lazily second) (Move.use other.runs.length mates)) := by
  cases same with
  | nil => exact rests.call
  | cons corresponds same => exact (rests.begin lawful corresponds same stops).begun

theorem During.drop (during : usage.During (usage.Begun past) past before scene other) :
    usage.Rests (scene.change past.length Running.drop)
      (other.change before.length Running.drop) := by
  obtain ⟨⟨run, last, runs, mates, begun⟩, ended, tasks⟩ := during
  obtain ⟨ends, none, nothing, left⟩ := begun.drop lawful
  rw [change_last runs, change_last mates]
  refine ⟨left, List.rel_append ended (.cons ends .nil), ?_⟩
  dsimp only
  rw [none, nothing]
  exact List.rel_append tasks .nil

/-- Runs that are never polled count for nothing, where there are any. -/
abbrev Ignores (usage : Usage σ τ ρ) : Prop :=
  ∀ past s t, usage.left past s t → usage.left (past ++ [.dropped]) s t

theorem Rests.uses (rests : usage.Rests scene other) {n : Nat} (next : scene.runs.length = n)
    {uses : List (List (σ → σ))} {others : List (List (τ → τ))}
    (same : List.Forall₂ (List.Forall₂ usage.Turns) uses others)
    (polled : [] ∈ uses → usage.Ignores)
    (stops : scene.StopsIn usage.allowed (.lazily first) (Move.uses n uses)) :
    usage.Rests (scene.play (.lazily first) (Move.uses n uses))
        (other.play (.lazily second) (Move.uses n others)) ∧
      (scene.play (.lazily first) (Move.uses n uses)).runs.length = n + uses.length := by
  induction same generalizing scene other n with
  | nil => exact ⟨rests, next⟩
  | @cons turns mates uses others corresponds _ ih =>
    have there : other.runs.length = n := rests.runs.length_eq ▸ next
    obtain ⟨stop, -, stops⟩ := stopsIn_append.mp stops
    unfold Move.uses
    rw [play_append, play_append, List.length_cons, Nat.add_comm uses.length, ← Nat.add_assoc]
    have used := rests.use lawful corresponds (next ▸ stop)
    have length := used.length_drop
    rw [next] at length
    refine ih ?_ length (fun empty => polled (.tail _ empty)) stops
    cases corresponds with
    | nil =>
      have passed := rests.pass first second
        (polled (.head _) _ _ _ rests.left)
      rwa [next, there] at passed
    | cons corresponds same =>
      have dropped := (rests.begin lawful corresponds same (next ▸ stop)).drop lawful
      rwa [next, there] at dropped

section
variable {start : σ} {mate : τ} (left : usage.left [] start mate)
  {uses : List (List (σ → σ))} {others : List (List (τ → τ))}
  (same : List.Forall₂ (List.Forall₂ usage.Turns) uses others)
  (polled : [] ∈ uses → usage.Ignores)
  (stops : (Scene.opened start).StopsIn usage.allowed (.lazily first) (Move.course uses turns))
include left same polled stops

/-- Where the last use begins. -/
theorem Lawful.before_last : ∃ scene other, usage.Rests scene other ∧
    scene.StopsIn usage.allowed (.lazily first) (Move.use scene.runs.length turns) ∧
      (.play (.lazily first) (.opened start) (Move.course uses turns)) =
        scene.play (.lazily first) (Move.use scene.runs.length turns) ∧
      (.play (.lazily second) (.opened mate) (Move.course others mates)) =
        other.play (.lazily second) (Move.use other.runs.length mates) := by
  have opened : usage.Rests (.opened start) (.opened mate) := ⟨left, .nil, .nil⟩
  obtain ⟨stop, stops⟩ := stopsIn_append.mp stops
  obtain ⟨rests, length⟩ := opened.uses lawful (n := 0) rfl same polled stop
  rw [Nat.zero_add] at length
  have there := (rests.runs.length_eq.symm.trans length).trans same.length_eq
  refine ⟨_, _, rests, length ▸ stops, ?_, ?_⟩
  · rw [length]
    exact play_append _ _ _ _
  · rw [there]
    exact play_append _ _ _ _

/-- At every moment in the course of any uses the two programs stand at corresponding points. -/
theorem Lawful.course (corresponds : List.Forall₂ usage.Turns turns mates) :
    ∃ past before, usage.During (usage.Stands first second past) past before
      (.play (.lazily first) (.opened start) (Move.course uses turns))
      (.play (.lazily second) (.opened mate) (Move.course others mates)) := by
  obtain ⟨scene, other, rests, stop, here, there⟩ := lawful.before_last left same polled stops
  rw [here, there]
  exact ⟨_, _, rests.use lawful corresponds stop⟩

/-- Once the last run has been polled, it has begun. -/
theorem Lawful.course_begun (corresponds : List.Forall₂ usage.Turns turns mates)
    (begins : turns ≠ []) :
    ∃ past before, usage.During (usage.Begun past) past before
      (.play (.lazily first) (.opened start) (Move.course uses turns))
      (.play (.lazily second) (.opened mate) (Move.course others mates)) := by
  obtain ⟨scene, other, rests, stop, here, there⟩ := lawful.before_last left same polled stops
  rw [here, there]
  cases corresponds with
  | nil => exact absurd rfl begins
  | cons turned corresponds => exact ⟨_, _, rests.begin lawful turned corresponds stop⟩

end

theorem During.standings
    (during : usage.During (usage.Stands first second past) past before scene other) :
    scene.standings = other.standings := by
  obtain ⟨⟨run, last, runs, mates, stands⟩, past, -⟩ := during
  unfold Scene.standings
  rw [runs, mates, List.map_append, List.map_append, List.map_singleton, List.map_singleton,
    stands.standing lawful]
  refine congrArg (· ++ _) ?_
  have same : List.Forall₂ Eq (List.map (Running.standing scene.state) _)
      (List.map (Running.standing other.state) _) :=
    List.rel_map (fun _ _ ended => ended.standing _ _) past
  rwa [List.forall₂_eq_eq_eq] at same

end Usage

/-! ### What the runs have come to -/

/-- A result that is not a failure. -/
def Running.good? [HasFailure ρ] : Running σ ρ → Option ρ
  | answered result => if HasFailure.isFailure result then none else some result
  | stopped _ _ => none
  | panicked => none
  | dropped => none

/-- The first result that is not a failure. -/
def settled [HasFailure ρ] (runs : List (Running σ ρ)) : Option ρ :=
  runs.findSome? Running.good?

section
variable [HasFailure ρ] {runs : List (Running σ ρ)} {result : ρ}

theorem settled_concat (runs : List (Running σ ρ)) (run : Running σ ρ) :
    settled (runs ++ [run]) = (settled runs).or run.good? := by
  unfold settled
  rw [List.findSome?_append, List.findSome?_singleton]

theorem settled_concat_of_none {run : Running σ ρ} (none : run.good? = none) :
    settled (runs ++ [run]) = settled runs := by
  rw [settled_concat, none, Option.or_none]

theorem Running.good?_of_failure (failure : HasFailure.isFailure result = true) :
    (answered result : Running σ ρ).good? = none :=
  if_pos failure

theorem Running.good?_of_good (good : HasFailure.isFailure result = false) :
    (answered result : Running σ ρ).good? = some result :=
  if_neg (Bool.eq_false_iff.mp good)

theorem isFailure_of_settled (found : settled runs = some result) :
    HasFailure.isFailure result = false := by
  obtain ⟨run, -, good⟩ := List.exists_of_findSome?_eq_some found
  cases run with
  | answered other =>
    rw [Running.good?] at good
    split at good
    next => cases good
    next fine =>
      obtain rfl := Option.some.inj good
      exact Bool.eq_false_iff.mpr fine
  | stopped | panicked | dropped => cases good

end

end Deferred
