import Deferred.Proofs.Boundary.Ledger
import Deferred.Proofs.Merge.Looks
import Deferred.Proofs.Merge.Offers

/-! What a turn of each part of a merged run logs. The consumer never panics and logs nothing, and
neither do the inputs but for what their feeds log themselves. The supervisor logs nothing while it
waits; in its last turn it logs the panics that the hub knows of. -/

namespace Deferred

variable {σ α : Type}

/-! ### Runs that leave something alone -/

/-- The payload of a panic with which a poll ends. -/
def Items.panic? : Items σ α → Option Payload
  | item _ _ _ _ => none
  | ended _ => none
  | panic payload _ _ => some payload
  | waiting _ _ _ => none
  | spawn _ rest state => (rest state).panic?

/-- A run that leaves this alone, polled or dropped, and panics only if it may. -/
inductive Items.Keeps {κ : Type} (kept : σ → κ) (mayPanic : Prop) : σ → Items σ α → Prop where
  | item {start value rest release state} (same : kept state = kept start)
      (releases : ∀ s, kept (release s) = kept s) (resumes : ∀ s, Keeps kept mayPanic s (rest s)) :
      Keeps kept mayPanic start (.item value rest release state)
  | ended {start state} (same : kept state = kept start) :
      Keeps kept mayPanic start (.ended state)
  | panic {start payload release state} (may : mayPanic) (same : kept state = kept start)
      (releases : ∀ s, kept (release s) = kept s) :
      Keeps kept mayPanic start (.panic payload release state)
  | waiting {start wait resume state} (same : kept state = kept start)
      (releases : ∀ s, kept (wait.release s) = kept s)
      (resumes : ∀ s, Keeps kept mayPanic s (resume s)) :
      Keeps kept mayPanic start (.waiting wait resume state)
  | spawn {start child rest state} (same : kept state = kept start)
      (resumes : ∀ s, Keeps kept mayPanic s (rest s)) :
      Keeps kept mayPanic start (.spawn child rest state)

/-- What is left of such a run. -/
structure Cursor.Keeps {κ : Type} (kept : σ → κ) (mayPanic : Prop) (cursor : Cursor σ α) :
    Prop where
  releases : ∀ s, kept (cursor.wait.release s) = kept s
  resumes : ∀ s, (cursor.resume s).Keeps kept mayPanic s

namespace Items.Keeps

variable {κ : Type} {kept : σ → κ} {mayPanic : Prop} {start : σ} {items : Items σ α}

theorem after {middle : σ} (same : kept middle = kept start)
    (keeps : items.Keeps kept mayPanic middle) : items.Keeps kept mayPanic start := by
  cases keeps with
  | item here releases resumes => exact .item (here.trans same) releases resumes
  | ended here => exact .ended (here.trans same)
  | panic may here releases => exact .panic may (here.trans same) releases
  | waiting here releases resumes => exact .waiting (here.trans same) releases resumes
  | spawn here resumes => exact .spawn (here.trans same) resumes

/-- What such a run does in a poll. -/
theorem turn (keeps : items.Keeps kept False start) :
    items.panic? = none ∧ kept items.state = kept start ∧
      ∀ cursor, items.cursor = some cursor → cursor.Keeps kept False := by
  induction keeps with
  | item same releases resumes =>
    refine ⟨rfl, same, fun cursor left => ?_⟩
    obtain rfl := Option.some.inj left
    exact ⟨releases, resumes⟩
  | ended same => exact ⟨rfl, same, nofun⟩
  | panic may => exact may.elim
  | waiting same releases resumes =>
    refine ⟨rfl, same, fun cursor left => ?_⟩
    obtain rfl := Option.some.inj left
    exact ⟨releases, resumes⟩
  | @spawn _ child rest state same _ ih =>
    obtain ⟨calm, here, goesOn⟩ := ih state
    exact ⟨calm, here.trans same, goesOn⟩

theorem spawning {flow : Flow σ α} (tasks : List (σ → Task σ))
    (keeps : ∀ s, (flow s).Keeps kept mayPanic s) (state : σ) :
    (Flow.spawning tasks flow state).Keeps kept mayPanic state := by
  induction tasks generalizing state with
  | nil => exact keeps state
  | cons task rest ih => exact .spawn rfl ih

end Items.Keeps

/-! ### A log -/

/-- A log to which the host records. -/
structure Log (σ : Type) [Host σ] where
  errors : σ → List Error
  errors_record : ∀ error state, errors (Host.record error state) = errors state ++ [error]
  errors_trace : ∀ event state, errors (Host.trace event state) = errors state
  errors_allow : ∀ count state, errors (Host.allow count state) = errors state

variable [Host σ]

/-- The log as a ledger of a program that raises nothing. -/
def Log.ledger (log : Log σ) : Ledger σ where
  log := log.errors
  raised _ := []
  log_record := log.errors_record
  raised_record _ _ := rfl
  log_trace := log.errors_trace
  raised_trace _ _ := rfl
  log_allow := log.errors_allow
  raised_allow _ _ := rfl

/-- The errors that were logged between the two states. -/
def Log.added (log : Log σ) (before after : σ) : List Error :=
  (log.errors after).drop (log.errors before).length

theorem Log.added_of_same {log : Log σ} {before after : σ}
    (same : log.errors after = log.errors before) : log.added before after = [] := by
  unfold Log.added
  rw [same, List.drop_length]

theorem Log.added_of_append {log : Log σ} {before after : σ} {errors : List Error}
    (grown : log.errors after = log.errors before ++ errors) : log.added before after = errors := by
  unfold Log.added
  rw [grown, List.drop_left]

/-- Writing to the place leaves the log alone. -/
def Log.Spared {κ : Type} (log : Log σ) (place : Place σ κ) : Prop :=
  ∀ value state, log.errors (place.set value state) = log.errors state

namespace Merge

variable {log : Log σ} {place : Place σ (Hub α)} {cancellation : Cancellation σ}

/-! ### The consumer -/

theorem ends_of_look {flag : Flag} {hub rest : Hub α} {turn : Turn α}
    (looked : hub.look flag.raised = (turn, rest)) : rest.ends = hub.ends := by
  have steps := Consumer.Steps.look looked
  cases turn <;> exact steps.ends

section consumer

variable {κ : Type} {kept : σ → κ}

/-- Something that only the ends of inputs have to do with. -/
structure Unheld (place : Place σ (Hub α)) (kept : σ → κ) : Prop where
  set : ∀ hub state, hub.ends = (place.get state).ends → kept (place.set hub state) = kept state
  trace : ∀ event state, kept (Host.trace event state) = kept state
  allow : ∀ count state, kept (Host.allow count state) = kept state

variable (unheld : Unheld place kept)
include unheld

theorem Unheld.detach (state : σ) : kept (detach place state) = kept state :=
  unheld.set _ _ rfl

theorem Unheld.answer (state : σ) : kept (answer place state) = kept state := by
  unfold Merge.answer
  split
  · exact unheld.set _ _ rfl
  · exact (unheld.allow _ _).trans (unheld.set _ _ rfl)

theorem afford_keeps {next : Flow σ α} (keeps : ∀ s, (next s).Keeps kept False s) (state : σ) :
    (afford place next state).Keeps kept False state := by
  unfold afford
  split
  · exact keeps state
  · exact .waiting rfl unheld.detach keeps

theorem await_keeps {next : Flow σ α} (keeps : ∀ s, (next s).Keeps kept False s) (state : σ) :
    (await place cancellation next state).Keeps kept False state := by
  have goesOn : ∀ s, (next (answer place s)).Keeps kept False s := fun s =>
    (keeps _).after (unheld.answer s)
  rw [await_eq]
  rcases listened : (place.get state).listen with ⟨_ | _, hub⟩ <;> dsimp only <;>
    have same := unheld.set hub state (by rw [(Hub.eq_of_listen listened).2])
  · split
    · exact (goesOn _).after same
    · exact .waiting same unheld.detach (afford_keeps unheld goesOn)
  · exact (keeps _).after same

theorem consume_keeps (left : Nat) :
    ∀ state, (consume place cancellation left state).Keeps kept False state := by
  induction left with
  | zero => exact fun state => .waiting rfl unheld.detach fun _ => .ended rfl
  | succ left ih =>
    intro state
    rw [consume_succ]
    rcases looked : (place.get state).look (cancellation.flag.get state).raised with
      ⟨count | value | _ | _, hub⟩ <;> dsimp only <;>
      have same := unheld.set hub state (ends_of_look looked)
    · exact .ended ((unheld.trace _ _).trans same)
    · exact .item same unheld.detach ih
    · exact .ended same
    · exact (afford_keeps unheld (await_keeps unheld ih) _).after same

/-- The consumer of any merged run never panics, and leaves everything alone that only the ends of
the inputs have to do with. -/
theorem flow_keeps (feeds : List (Feed σ α)) (state : σ) :
    (flow place feeds cancellation state).Keeps kept False state :=
  (Items.Keeps.spawning _ (consume_keeps unheld looks) _).after (unheld.trace _ _)

end consumer

/-! ### The inputs -/

/-- An input logs nothing beside what its feed logs, also when the feed panics. -/
theorem feedTask_keeps (spared : log.Spared place) (index : Nat) {start : σ} {items : Items σ α}
    (keeps : items.Keeps log.errors True start) :
    log.errors (feedTask place index items).state = log.errors start := by
  induction keeps with
  | @item start value rest release state same releases _ ih =>
    simp only [feedTask, Items.toTask]
    rw [deliver_eq]
    by_cases attached : (place.get state).attached = true
    · rw [if_pos attached]
      exact ((ih _).trans (spared _ _)).trans same
    · rw [if_neg attached]
      have stopped := (log.errors_trace .inputStopped _).trans (spared (place.get state) state)
      exact (((spared _ _).trans (releases _)).trans stopped).trans same
  | ended same => exact (spared _ _).trans same
  | panic _ same releases => exact ((spared _ _).trans (releases _)).trans same
  | waiting same => exact same
  | @spawn start child rest state same _ ih => exact (ih state).trans same

/-! ### The supervisor -/

/-- A turn of the supervisor of so many inputs. -/
structure Supervisor.Logs (log : Log σ) (place : Place σ (Hub α)) (inputs : Nat) (state : σ)
    (task : Task σ) : Prop where
  ends : (place.get task.state).ends = (place.get state).ends
  waits : ∀ job, task.job = some job → log.errors task.state = log.errors state
  finished : task.job = none → log.errors task.state =
    log.errors state ++ Ledger.panicsOf (place.get state) inputs

theorem Supervisor.Logs.of_spend (apart : Apart place cancellation) {inputs : Nat} {state : σ}
    {task : Task σ} (logs : Logs log place inputs (Host.spend state) task) :
    Logs log place inputs state task := by
  have hub : place.get (Host.spend state) = place.get state := apart.hub_allow _ _
  have errors : log.errors (Host.spend state) = log.errors state := log.errors_allow _ _
  obtain ⟨ends, waits, finished⟩ := logs
  rw [hub] at ends finished
  rw [errors] at waits finished
  exact ⟨ends, waits, finished⟩

theorem Supervisor.logs_wrapUp (apart : Apart place cancellation) (spared : log.Spared place)
    (inputs : Nat) (state : σ) :
    Logs log place inputs state (.done (wrapUp place inputs state)) := by
  have still : place.Obeys log.ledger.account := fun _ _ => ⟨spared _ _, rfl⟩
  have leaves : Ledger.Leaves place := ⟨apart.hub_record, apart.hub_trace⟩
  refine ⟨?_, nofun, fun _ => (Ledger.wrapUp_apply still leaves inputs state).1⟩
  have wrapped := (apart.wrapUp inputs state).1
  rw [Task.state, wrapped, Hub.close]
  split <;> rfl

theorem Supervisor.logs_watch (apart : Apart place cancellation) (spared : log.Spared place)
    (inputs left : Nat) :
    ∀ seen state, Logs log place inputs state (watch place inputs seen left state) := by
  induction left with
  | zero => exact fun _ state => logs_wrapUp apart spared inputs state
  | succ left ih =>
    intro seen state
    rw [watch_succ]
    split
    · rw [notice_eq]
      split
      · exact (ih (seen + 1) _).of_spend apart
      · exact ⟨rfl, fun _ _ => rfl, nofun⟩
    · exact ⟨rfl, fun _ _ => rfl, nofun⟩

theorem Supervisor.Shows.logs (apart : Apart place cancellation) (spared : log.Spared place)
    {inputs : Nat} {supervisor : Supervisor} {state : σ} {job : Job σ}
    (shows : Shows place inputs supervisor (place.get state) (some (some job)))
    (opens : job.wait.opens state = true) : Logs log place inputs state (job.resume state) := by
  cases shows with
  | begins => exact logs_watch apart spared inputs inputs 0 state
  | @waits _ seen left =>
    have noticed : seen < (place.get state).ends.length := of_decide_eq_true opens
    have watched : Logs log place inputs state (watch place inputs seen (left + 1) state) :=
      logs_watch apart spared inputs (left + 1) seen state
    rwa [watch_succ, if_pos noticed] at watched
  | @pays _ seen left => exact (logs_watch apart spared inputs left (seen + 1) _).of_spend apart

end Merge
end Deferred
