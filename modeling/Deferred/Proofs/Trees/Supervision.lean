import Deferred.Proofs.Trees.Workers

/-! The supervisor of a merge whose inputs do not panic. It has no more than two turns for each
input, one in which it notices the end and one in which it pays for that, and when it has seen all
inputs end it closes the hub and has nothing to tell. -/

namespace Deferred.Merge

variable {σ α : Type}

section
variable [Host σ] (place : Place σ (Hub α)) (cancellation : Cancellation σ) (inputs : Nat)

/-- What is left of the supervisor, with a number that each of its turns brings down. -/
inductive Oversees : Nat → Hub α → Multiset (Job σ) → Prop where
  | begins {hub} (running : hub.running = true) :
      Oversees (2 * inputs + 2) hub {⟨.passed, supervisor place inputs⟩}
  | waits {hub seen left} (running : hub.running = true) (sum : seen + (left + 1) = inputs) :
      Oversees (2 * left + 3) hub
        {⟨⟨none, fun s => decide (seen < (place.get s).ends.length), id⟩,
          notice place inputs seen left⟩}
  | pays {hub seen left} (running : hub.running = true) (sum : seen + (left + 1) = inputs)
      (noticed : seen < hub.ends.length) :
      Oversees (2 * left + 2) hub
        {⟨.turn, fun s => watch place inputs (seen + 1) left (Host.spend s)⟩}
  | done {hub} (closed : hub.running = false) (ended : hub.ends.length = inputs) : Oversees 0 hub 0

/-- What the supervisor does to the hub: nothing, or it calls the consumer. -/
structure Tended (hub after : Hub α) : Prop where
  queue : after.queue = hub.queue
  attached : after.attached = hub.attached
  ends : after.ends = hub.ends
  attends : ∀ post left cursor, Attends place cancellation post left hub cursor →
    Attends place cancellation post left after cursor
  effort : ∀ post, effort post after ≤ effort post hub + 3

/-- The hub of a merge that goes on: no input has panicked. -/
structure Sound (grounds : Grounds σ) (state : σ) : Prop where
  calm : grounds.calm state
  taken : ⟨α, place⟩ ∈ grounds.taken state
  attached : (place.get state).attached = true
  fine : ∀ entry ∈ (place.get state).ends, entry.2 = none
  all : (place.get state).ends.length ≤ inputs

/-- The supervisor comes from this state to what is left of its task, and less is left of it than
the number says. -/
def Oversaw (grounds : Grounds σ) (most : Nat) (state : σ) (task : Task σ) : Prop :=
  ∃ weight, weight < most ∧ grounds.Moves {⟨α, place⟩} {⟨α, place⟩} state task.state ∧
    Tended place cancellation (place.get state) (place.get task.state) ∧
    Oversees place inputs weight (place.get task.state) (Job.after task 0)

end

section
variable [Host σ] {place : Place σ (Hub α)} {cancellation : Cancellation σ} {inputs : Nat}
  {grounds : Grounds σ} {hub after : Hub α} {state : σ} {weight most : Nat}
  {tasks : Multiset (Job σ)} {task : Task σ}

theorem Tended.refl (hub : Hub α) : Tended place cancellation hub hub :=
  ⟨rfl, rfl, rfl, fun _ _ _ => id, fun _ => Nat.le_add_right _ 3⟩

theorem Tended.close (attached : hub.attached = true) :
    Tended place cancellation hub hub.close := by
  have closes : hub.close = hub.stop.notify := if_pos attached
  rw [closes]
  exact ⟨rfl, rfl, rfl, fun _ _ _ attends => attends.notify rfl,
    fun post => effort_give post 0 rfl rfl⟩

/-- Others may note further ends. -/
theorem Oversees.mono (oversees : Oversees place inputs weight hub tasks)
    (running : after.running = hub.running) (more : hub.ends.length ≤ after.ends.length)
    (all : after.ends.length ≤ inputs) : Oversees place inputs weight after tasks := by
  cases oversees with
  | begins runs => exact .begins (running.trans runs)
  | waits runs sum => exact .waits (running.trans runs) sum
  | pays runs sum noticed => exact .pays (running.trans runs) sum (noticed.trans_le more)
  | done closed ended => exact .done (running.trans closed) (by omega)

omit [Host σ] in
theorem panicOf_eq_none (fine : ∀ entry ∈ hub.ends, entry.2 = none) (index : Nat) :
    hub.panicOf index = none := by
  unfold Hub.panicOf
  cases found : hub.ends.lookup index with
  | none => rfl
  | some payload =>
    obtain ⟨before, later, split, -⟩ := List.lookup_eq_some_iff.mp found
    exact fine (index, payload) (split ▸ List.mem_append_right _ List.mem_cons_self)

/-- Where no input has panicked there is nothing to record. -/
theorem wrapUp_of_fine (fine : ∀ entry ∈ (place.get state).ends, entry.2 = none) (inputs : Nat) :
    wrapUp place inputs state = place.modify Hub.close (Host.trace .inputsFinished state) := by
  have quiet : ∀ index, recordPanic place state index = state := by
    intro index
    unfold recordPanic
    rw [panicOf_eq_none fine index]
  have recorded : ∀ indices : List Nat, indices.foldl (recordPanic place) state = state := by
    intro indices
    induction indices with
    | nil => rfl
    | cons index rest ih => rw [List.foldl_cons, quiet, ih]
  unfold wrapUp
  rw [recorded]

/-- The supervisor goes on in a state in which nothing has changed for the merge. -/
theorem Oversaw.prepend {now : σ} {less : Nat}
    (oversaw : Oversaw place cancellation inputs grounds less now task) (bound : less ≤ most)
    (leaves : grounds.Leaves (grounds.taken state) state now)
    (taken : ⟨α, place⟩ ∈ grounds.taken state) :
    Oversaw place cancellation inputs grounds most state task := by
  obtain ⟨weight, fewer, moves, tended, oversees⟩ := oversaw
  have same : place.get now = place.get state := leaves.same ⟨α, place⟩ taken
  exact ⟨weight, fewer.trans_le bound,
    (leaves.moves (Set.singleton_subset_iff.mpr taken)).trans moves, same ▸ tended, oversees⟩

theorem Sound.leave {held : Set (Hold σ)} {now : σ} (sound : Sound place inputs grounds state)
    (leaves : grounds.Leaves held state now) (member : ⟨α, place⟩ ∈ held) :
    Sound place inputs grounds now := by
  have same : place.get now = place.get state := leaves.same ⟨α, place⟩ member
  exact ⟨leaves.calm, leaves.taken sound.taken, same ▸ sound.attached, same ▸ sound.fine,
    same ▸ sound.all⟩

/-- The supervisor stops at a wait. -/
theorem oversaw_waiting {wait : Wait σ} {resume : σ → Task σ}
    (sound : Sound place inputs grounds state)
    (oversees : Oversees place inputs weight (place.get state) {⟨wait, resume⟩})
    (less : weight < most) :
    Oversaw place cancellation inputs grounds most state (.waiting wait resume state) :=
  ⟨weight, less, .refl sound.calm (Set.singleton_subset_iff.mpr sound.taken), .refl _,
    (Job.after_waiting wait resume state 0) ▸ oversees⟩

/-- The supervisor has seen all inputs end. -/
theorem oversaw_wrapUp (sound : Sound place inputs grounds state)
    (ended : (place.get state).ends.length = inputs) :
    Oversaw place cancellation inputs grounds 2 state (.done (wrapUp place inputs state)) := by
  rw [wrapUp_of_fine sound.fine]
  have told := grounds.leaves_trace sound.calm .inputsFinished
  have goesOn := sound.leave told sound.taken
  refine Oversaw.prepend ?_ le_rfl told sound.taken
  have same : place.get (Host.trace .inputsFinished state) = place.get state :=
    told.same ⟨α, place⟩ sound.taken
  have closes : (place.get (Host.trace .inputsFinished state)).close =
      (place.get (Host.trace .inputsFinished state)).stop.notify := if_pos goesOn.attached
  have got := place.get_set (place.get (Host.trace .inputsFinished state)).close
    (Host.trace .inputsFinished state)
  refine ⟨0, Nat.two_pos, moves_set goesOn.calm goesOn.taken _, ?_, ?_⟩
  · exact got.symm ▸ .close goesOn.attached
  · rw [Job.after_done]
    refine .done (congrArg Hub.running (got.trans closes)) ?_
    exact (congrArg (·.ends.length) (got.trans closes)).trans
      ((congrArg (·.ends.length) same).trans ended)

section
variable (place cancellation inputs grounds)

/-- The supervisor that has seen all ends but so many looks for the others. -/
def Watches (left : Nat) : Prop :=
  ∀ (seen : Nat) (state : σ), seen + left = inputs → Sound place inputs grounds state →
    (place.get state).running = true → seen ≤ (place.get state).ends.length →
    Oversaw place cancellation inputs grounds (2 * left + 2) state
      (watch place inputs seen left state)

end

namespace Watches

variable {seen left : Nat}

/-- It pays for an end that it has noticed, and looks for the others. -/
theorem spend (watches : Watches place cancellation inputs grounds left)
    (sum : seen + (left + 1) = inputs) (sound : Sound place inputs grounds state)
    (running : (place.get state).running = true) (noticed : seen < (place.get state).ends.length) :
    Oversaw place cancellation inputs grounds (2 * left + 2) state
      (watch place inputs (seen + 1) left (Host.spend state)) := by
  have spent := grounds.leaves_allow sound.calm (Host.allowance state - 1)
  have same : place.get (Host.spend state) = place.get state := spent.same ⟨α, place⟩ sound.taken
  exact (watches (seen + 1) _ (by omega) (sound.leave spent sound.taken) (same ▸ running)
    (same ▸ noticed)).prepend le_rfl spent sound.taken

/-- It notices an end. -/
theorem notice (watches : Watches place cancellation inputs grounds left)
    (sum : seen + (left + 1) = inputs) (sound : Sound place inputs grounds state)
    (running : (place.get state).running = true) (noticed : seen < (place.get state).ends.length) :
    Oversaw place cancellation inputs grounds (2 * left + 3) state
      (notice place inputs seen left state) := by
  rw [notice_eq]
  split
  · exact (watches.spend sum sound running noticed).prepend (by omega) (.refl sound.calm)
      sound.taken
  · exact oversaw_waiting sound (.pays running sum noticed) (by omega)

end Watches

theorem watches (left : Nat) : Watches place cancellation inputs grounds left := by
  induction left with
  | zero =>
    intro seen state sum sound running noticed
    have all := sound.all
    exact oversaw_wrapUp sound (by omega)
  | succ left ih =>
    intro seen state sum sound running _
    rw [watch_succ]
    split
    case isTrue noticed =>
      exact (ih.notice sum sound running noticed).prepend (by omega) (.refl sound.calm) sound.taken
    case isFalse => exact oversaw_waiting sound (.waits running sum) (by omega)

/-- A turn of the supervisor. -/
theorem Oversees.turn {rest : Multiset (Job σ)} {job : Job σ}
    (sound : Sound place inputs grounds state)
    (oversees : Oversees place inputs weight (place.get state) tasks) (split : tasks = job ::ₘ rest)
    (opens : job.wait.opens state = true) :
    rest = 0 ∧ Oversaw place cancellation inputs grounds weight state (job.resume state) := by
  cases oversees with
  | begins running =>
    obtain ⟨rfl, rfl⟩ := (Multiset.singleton_eq_cons_iff _).mp split
    exact ⟨rfl, watches inputs 0 state (by omega) sound running (Nat.zero_le _)⟩
  | @waits _ seen left running sum =>
    obtain ⟨rfl, rfl⟩ := (Multiset.singleton_eq_cons_iff _).mp split
    have noticed : seen < (place.get state).ends.length := of_decide_eq_true opens
    exact ⟨rfl, (watches left).notice sum sound running noticed⟩
  | @pays _ seen left running sum noticed =>
    obtain ⟨rfl, rfl⟩ := (Multiset.singleton_eq_cons_iff _).mp split
    exact ⟨rfl, (watches left).spend sum sound running noticed⟩
  | done closed ended => exact absurd split.symm Multiset.cons_ne_zero

/-- Once all inputs have ended the supervisor has closed the hub, or has a turn. -/
theorem Oversees.opens (oversees : Oversees place inputs weight (place.get state) tasks)
    (ended : (place.get state).ends.length = inputs) (allowed : 0 < Host.allowance state) :
    (place.get state).running = false ∨ ∃ job ∈ tasks, job.wait.opens state = true := by
  cases oversees with
  | begins => exact .inr ⟨_, Multiset.mem_singleton_self _, rfl⟩
  | @waits _ seen left running sum =>
    exact .inr ⟨_, Multiset.mem_singleton_self _, decide_eq_true (by omega)⟩
  | pays => exact .inr ⟨_, Multiset.mem_singleton_self _, decide_eq_true allowed⟩
  | done closed ended => exact .inl closed

/-- Where the hub is closed the supervisor is done. -/
theorem Oversees.over_of_closed (oversees : Oversees place inputs weight hub tasks)
    (closed : hub.running = false) : tasks = 0 ∧ hub.ends.length = inputs := by
  cases oversees with
  | begins running | waits running | pays running =>
    exact absurd running (closed ▸ Bool.false_ne_true)
  | done closed ended => exact ⟨rfl, ended⟩

end

end Deferred.Merge
