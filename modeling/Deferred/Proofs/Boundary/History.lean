import Deferred.Proofs.Boundary.Soundness
import Deferred.Proofs.Cache.Program
import Deferred.Proofs.Merge.Polls

/-! Histories of one run of an action. The action is called, and what the call hands back is polled
or dropped, each time in a state that other code may have left. Tasks that the run spawns have turns
of their own, in any order and also when the run is over. A turn is told by the states in which it
begins and ends. -/

namespace Deferred

variable {σ ρ : Type}

/-- The tasks that a poll spawns. -/
def Poll.children : Poll σ ρ → List (σ → Task σ)
  | ready _ _ => []
  | panic _ _ => []
  | waiting _ _ _ => []
  | spawn child rest state => child :: (rest state).children

def Task.children : Task σ → List (σ → Task σ)
  | done _ => []
  | waiting _ _ _ => []
  | spawn child rest state => child :: (rest state).children

/-- Spawned tasks that have not been polled yet. -/
def Job.ofChildren (children : List (σ → Task σ)) : List (Option (Job σ)) :=
  children.map fun child => some ⟨.passed, child⟩

/-- The turns of the run itself, those of its tasks, and what is left of both. -/
inductive Action.History (action : Action σ ρ) :
    List (σ × σ) → List (σ × σ) → Running σ ρ → List (Option (Job σ)) → Prop where
  | call {future state after} (called : action.call state = (.ok future, after)) :
      History action [(state, after)] [] (.stopped .passed future) []
  | unwinds {payload state after} (called : action.call state = (.error payload, after)) :
      History action [(state, after)] [] .panicked []
  | poll {own others wait resume tasks state}
      (earlier : History action own others (.stopped wait resume) tasks)
      (opens : wait.opens state = true) :
      History action (own ++ [(state, (resume state).state)]) others (resume state).running
        (tasks ++ Job.ofChildren (resume state).children)
  | drop {own others wait resume tasks state}
      (earlier : History action own others (.stopped wait resume) tasks) :
      History action (own ++ [(state, wait.release state)]) others .dropped tasks
  | task {own others run tasks index job state} (earlier : History action own others run tasks)
      (here : tasks[index]? = some (some job)) (opens : job.wait.opens state = true) :
      History action own (others ++ [(state, (job.resume state).state)]) run
        (tasks.set index (job.resume state).job ++ Job.ofChildren (job.resume state).children)

variable [Host σ] {account : Account σ} {action : Action σ ρ} {own others : List (σ × σ)}
  {run : Running σ ρ} {tasks : List (Option (Job σ))}

/-- What is left of a run is no panic, and goes on as it should. -/
def Running.Obeys (account : Account σ) : Running σ ρ → Prop
  | .stopped wait resume =>
      (∀ s, account.still s (wait.release s)) ∧
        ∀ s, wait.opens s = true → (resume s).Obeys account False (fun _ => none) s
  | .answered _ => True
  | .panicked => False
  | .dropped => True

def Job.Obeys (account : Account σ) (job : Job σ) : Prop :=
  ∃ ends, account.Ends ends ∧
    ∀ s, job.wait.opens s = true → (job.resume s).Obeys account ends s

/-- A task stops owing nothing, or it ends. -/
def Account.TaskTurn (account : Account σ) (turn : σ × σ) : Prop :=
  ∃ ends, account.Ends ends ∧ (account.owes none turn.1 turn.2 ∨ ends turn.1 turn.2)

theorem Account.Ends.after {ends : σ → σ → Prop} (allowed : account.Ends ends)
    {first middle last : σ} (owes : account.owes none first middle) (ended : ends middle last) :
    ends first last := by
  cases allowed with
  | own => exact account.owes_trans owes ended
  | input apart index =>
    obtain ⟨payload, before, due, rfl⟩ := ended
    exact ⟨payload, before, account.owes_trans owes due, rfl⟩
  | supervisor apart inputs =>
    obtain ⟨before, nothing, rfl⟩ := ended
    exact ⟨before, account.owes_trans owes nothing, rfl⟩

theorem Poll.Obeys.turn {poll : Poll σ ρ} {start : σ}
    (obeys : poll.Obeys account False (fun _ => none) start) :
    account.owes none start poll.state ∧ poll.running.Obeys account ∧
      ∀ child ∈ poll.children, account.Minds child := by
  induction poll generalizing start with
  | ready result state => exact ⟨obeys, trivial, nofun⟩
  | panic payload state => exact obeys.1.elim
  | waiting wait resume state ih => exact ⟨obeys.1, obeys.2, nofun⟩
  | spawn child rest state ih =>
    obtain ⟨owes, running, minds⟩ := ih state (obeys.2.2 state)
    exact ⟨account.owes_trans obeys.1 owes, running, List.forall_mem_cons.mpr ⟨obeys.2.1, minds⟩⟩

theorem Task.Obeys.turn {task : Task σ} {ends : σ → σ → Prop} (allowed : account.Ends ends)
    {start : σ} (obeys : task.Obeys account ends start) :
    (account.owes none start task.state ∨ ends start task.state) ∧
      (∀ job, task.job = some job → job.Obeys account) ∧
      ∀ child ∈ task.children, account.Minds child := by
  induction task generalizing start with
  | done state => exact ⟨.inr obeys, nofun, nofun⟩
  | waiting wait resume state ih =>
    refine ⟨.inl obeys.1, fun job same => ?_, nofun⟩
    obtain rfl := Option.some.inj same
    exact ⟨ends, allowed, obeys.2⟩
  | spawn child rest state childIH ih =>
    obtain ⟨turn, goesOn, minds⟩ := ih state (obeys.2.2 state)
    exact ⟨turn.imp (account.owes_trans obeys.1) (allowed.after obeys.1), goesOn,
      List.forall_mem_cons.mpr ⟨obeys.2.1, minds⟩⟩

theorem Job.obeys_ofChildren {children : List (σ → Task σ)}
    (minds : ∀ child ∈ children, account.Minds child) {job : Job σ}
    (member : some job ∈ Job.ofChildren children) : job.Obeys account := by
  obtain ⟨child, there, same⟩ := List.mem_map.mp member
  obtain rfl := Option.some.inj same
  obtain ⟨ends, allowed, obeys⟩ := minds child there
  exact ⟨ends, allowed, fun s _ => obeys s⟩

/-- What holds after every turn of a sound action. -/
structure Action.Kept (account : Account σ) (own others : List (σ × σ)) (run : Running σ ρ)
    (tasks : List (Option (Job σ))) : Prop where
  own : ∀ turn ∈ own, account.owes none turn.1 turn.2
  others : ∀ turn ∈ others, account.TaskTurn turn
  run : run.Obeys account
  tasks : ∀ job, some job ∈ tasks → job.Obeys account

theorem Action.Sound.kept (sound : action.Sound account)
    (history : action.History own others run tasks) : Action.Kept account own others run tasks := by
  induction history with
  | @call future state after called =>
    obtain ⟨other, later, same, owes, keeps⟩ := sound state
    rw [called] at same
    cases same
    exact ⟨by simpa using owes, nofun, ⟨account.still_self, fun s _ => keeps s⟩, nofun⟩
  | @unwinds payload state after called =>
    obtain ⟨other, later, same, -, -⟩ := sound state
    rw [called] at same
    cases same
  | poll earlier opens ih =>
    obtain ⟨owes, running, minds⟩ := (ih.run.2 _ opens).turn
    refine ⟨?_, ih.others, running, fun job member => ?_⟩
    · exact List.forall_mem_append.mpr ⟨ih.own, by simpa using owes⟩
    · exact (List.mem_append.mp member).elim (ih.tasks job) (Job.obeys_ofChildren minds)
  | drop earlier ih =>
    refine ⟨?_, ih.others, trivial, ih.tasks⟩
    exact List.forall_mem_append.mpr ⟨ih.own, by simpa using account.still_owes (ih.run.1 _)⟩
  | task earlier here opens ih =>
    obtain ⟨ends, allowed, obeys⟩ := ih.tasks _ (List.mem_of_getElem? here)
    obtain ⟨turn, goesOn, minds⟩ := (obeys _ opens).turn allowed
    refine ⟨ih.own, ?_, ih.run, fun job member => ?_⟩
    · exact List.forall_mem_append.mpr ⟨ih.others, by simpa using ⟨ends, allowed, turn⟩⟩
    · rcases List.mem_append.mp member with member | member
      · rcases List.mem_or_eq_of_mem_set member with member | same
        · exact ih.tasks job member
        · exact goesOn job same.symm
      · exact Job.obeys_ofChildren minds member

end Deferred
