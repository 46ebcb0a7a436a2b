import Deferred.Proofs.Answers
import Deferred.Proofs.Notebook

/-! What a retried action does. A complete run of it is a sequence of acts: runs of the action,
waits and events. Which acts these are depends on the results of the runs alone, and on nothing
that an earlier run of the retried action may have left behind. -/

namespace Deferred

variable {σ ρ : Type}

namespace Retry

inductive Act (ρ : Type) where
  | run (result : ρ)
  | wait (delay : Duration)
  | tell (event : Event)
deriving DecidableEq

/-- Resumed in these states in turn, the acts are done one after the other, each one in the poll in
which the one before it has ended. -/
inductive Performs [Host σ] (action : Action σ ρ) : List (Act ρ) → σ → List σ → σ → Prop where
  | done {state} : Performs action [] state [] state
  | run {acts state first later result middle last}
      (runs : (action.awaited state).Answers first result middle)
      (rest : Performs action acts middle later last) :
      Performs action (.run result :: acts) state (first ++ later) last
  | wait {acts state first later delay middle last}
      (sleeps : (Future.sleep delay.millis state).Answers first () middle)
      (rest : Performs action acts middle later last) :
      Performs action (.wait delay :: acts) state (first ++ later) last
  | tell {acts state inputs event last}
      (rest : Performs action acts (Host.trace event state) inputs last) :
      Performs action (.tell event :: acts) state inputs last

/-- The results of all runs, if the budget allows that many: whatever is not the last one is a
failure, and if that one is a failure as well then the budget is used up. -/
structure Settles [HasFailure ρ] (budget : Nat) (results : List ρ) (last : ρ) : Prop where
  ends : results.getLast? = some last
  within : results.length ≤ budget
  earlier : ∀ result ∈ results.dropLast, HasFailure.isFailure result = true
  exhausted : HasFailure.isFailure last = true → results.length = budget

/-- Between the run of the given number and the next one. -/
def pause (plan : RetryPlan) (attempt : Nat) : List (Act ρ) :=
  (match plan.waitBefore attempt with
    | some delay => [.tell (.backingOff (.ofNat attempt) delay), .wait delay]
    | none => []) ++ [.tell (.retrying (.ofNat (attempt + 1)) plan.runs)]

/-- All acts, if the runs from the given one on have these results. -/
def acts [HasFailure ρ] (plan : RetryPlan) : Nat → List ρ → List (Act ρ)
  | _, [] => []
  | _, [last] =>
      .run last ::
        if HasFailure.isFailure last then [.tell (.retriesExhausted plan.runs)] else []
  | attempt, result :: next :: later =>
      .run result :: (pause plan attempt ++ acts plan (attempt + 1) (next :: later))

theorem Settles.ne_nil [HasFailure ρ] {budget : Nat} {results : List ρ} {last : ρ}
    (settles : Settles budget results last) : results ≠ [] := by
  rintro rfl
  cases settles.ends

theorem acts_cons [HasFailure ρ] (plan : RetryPlan) (attempt : Nat) (result : ρ)
    {later : List ρ} (more : later ≠ []) :
    acts plan attempt (result :: later) =
      .run result :: (pause plan attempt ++ acts plan (attempt + 1) later) := by
  cases later with
  | nil => exact absurd rfl more
  | cons next later => rfl

section
variable [Host σ] {action : Action σ ρ} {state last : σ} {inputs : List σ}

theorem performs_nil_iff : Performs action [] state inputs last ↔ inputs = [] ∧ last = state := by
  constructor
  · rintro ⟨⟩
    exact ⟨rfl, rfl⟩
  · rintro ⟨rfl, rfl⟩
    exact .done

theorem performs_tell_iff {event : Event} {acts : List (Act ρ)} :
    Performs action (.tell event :: acts) state inputs last ↔
      Performs action acts (Host.trace event state) inputs last := by
  constructor
  · rintro ⟨⟩
    assumption
  · exact .tell

theorem performs_run_iff {result : ρ} {acts : List (Act ρ)} :
    Performs action (.run result :: acts) state inputs last ↔
      ∃ first later middle, inputs = first ++ later ∧
        (action.awaited state).Answers first result middle ∧
        Performs action acts middle later last := by
  constructor
  · rintro ⟨⟩
    exact ⟨_, _, _, rfl, ‹_›, ‹_›⟩
  · rintro ⟨first, later, middle, rfl, runs, rest⟩
    exact .run runs rest

theorem performs_wait_iff {delay : Duration} {acts : List (Act ρ)} :
    Performs action (.wait delay :: acts) state inputs last ↔
      ∃ first later middle, inputs = first ++ later ∧
        (Future.sleep delay.millis state).Answers first () middle ∧
        Performs action acts middle later last := by
  constructor
  · rintro ⟨⟩
    exact ⟨_, _, _, rfl, ‹_›, ‹_›⟩
  · rintro ⟨first, later, middle, rfl, sleeps, rest⟩
    exact .wait sleeps rest

theorem performs_append_iff {before after : List (Act ρ)} :
    Performs action (before ++ after) state inputs last ↔
      ∃ first later middle, inputs = first ++ later ∧ Performs action before state first middle ∧
        Performs action after middle later last := by
  constructor
  · intro performs
    induction before generalizing state inputs with
    | nil => exact ⟨[], inputs, state, rfl, .done, performs⟩
    | cons act acts ih =>
      cases performs with
      | run runs rest =>
        obtain ⟨first, later, middle, rfl, begins, ends⟩ := ih rest
        exact ⟨_, later, middle, (List.append_assoc ..).symm, .run runs begins, ends⟩
      | wait sleeps rest =>
        obtain ⟨first, later, middle, rfl, begins, ends⟩ := ih rest
        exact ⟨_, later, middle, (List.append_assoc ..).symm, .wait sleeps begins, ends⟩
      | tell rest =>
        obtain ⟨first, later, middle, rfl, begins, ends⟩ := ih rest
        exact ⟨first, later, middle, rfl, .tell begins, ends⟩
  · rintro ⟨first, later, middle, rfl, begins, ends⟩
    induction begins with
    | done => exact ends
    | run runs _ ih => rw [List.append_assoc]; exact .run runs (ih ends)
    | wait sleeps _ ih => rw [List.append_assoc]; exact .wait sleeps (ih ends)
    | tell _ ih => exact .tell (ih ends)

/-- What a retried action does between two runs. -/
def paused (plan : RetryPlan) (attempt : UInt64) : Future σ Unit := do
  if let some delay := plan.waitBefore attempt.toNat then
    Future.trace (.backingOff attempt delay)
    Future.sleep delay.millis
  Future.trace (.retrying (attempt + 1) plan.runs)

theorem paused_answers_iff (plan : RetryPlan) {attempt : Nat} (bound : attempt < UInt64.size) :
    (paused plan (.ofNat attempt) state).Answers inputs () last ↔
      Performs action (pause plan attempt) state inputs last := by
  have number : (UInt64.ofNat attempt).toNat = attempt := UInt64.toNat_ofNat_of_lt' bound
  have next : UInt64.ofNat attempt + 1 = .ofNat (attempt + 1) := UInt64.ofNat_add attempt 1 |>.symm
  unfold paused pause
  rw [number, next]
  cases plan.waitBefore attempt with
  | none =>
    simp only [List.nil_append, performs_tell_iff, performs_nil_iff]
    exact Poll.answers_ready_iff.trans (by simp)
  | some delay =>
    simp only [List.cons_append, List.nil_append, performs_tell_iff, performs_wait_iff,
      performs_nil_iff]
    let told := Host.trace (.backingOff (.ofNat attempt) delay) state
    refine (@Poll.answers_bind_iff _ _ _ (Future.sleep delay.millis told) _ _ _ _).trans ⟨?_, ?_⟩
    · rintro ⟨first, later, ⟨⟩, middle, rfl, sleeps, told⟩
      obtain ⟨rfl, -, rfl⟩ := Poll.answers_ready_iff.mp told
      exact ⟨first, [], middle, rfl, sleeps, rfl, rfl⟩
    · rintro ⟨first, later, middle, rfl, sleeps, rfl, rfl⟩
      exact ⟨first, [], (), middle, rfl, sleeps, .ready⟩

variable [HasFailure ρ]

theorem runsFrom_zero (plan : RetryPlan) (attempt : UInt64) :
    action.runsFrom plan 0 attempt state =
      (action.awaited state).bind fun result after =>
        .ready result (if HasFailure.isFailure result then
          Host.trace (.retriesExhausted plan.runs) after else after) := by
  refine congrArg (action.awaited state).bind ?_
  funext result after
  dsimp only
  split <;> rfl

theorem runsFrom_succ (plan : RetryPlan) (left : Nat) (attempt : UInt64) :
    action.runsFrom plan (left + 1) attempt state =
      (action.awaited state).bind fun result after =>
        if HasFailure.isFailure result then
          (paused plan attempt after).bind fun _ => action.runsFrom plan left (attempt + 1)
        else .ready result after := by
  refine congrArg (action.awaited state).bind ?_
  funext result after
  dsimp only
  split
  · unfold paused
    cases plan.waitBefore attempt.toNat with
    | none => rfl
    | some delay =>
      let told := Host.trace (.backingOff attempt delay) after
      exact (Poll.bind_assoc (Future.sleep delay.millis told) _ _).symm
  · rfl

theorem settles_one_iff {results : List ρ} {result : ρ} :
    Settles 1 results result ↔ results = [result] := by
  constructor
  · rintro ⟨ends, within, -, -⟩
    match results, ends, within with
    | [_], rfl, _ => rfl
  · rintro rfl
    exact ⟨rfl, Nat.le_refl _, nofun, fun _ => rfl⟩

theorem settles_succ_iff {budget : Nat} {results : List ρ} {result : ρ} :
    Settles (budget + 2) results result ↔
      (HasFailure.isFailure result = false ∧ results = [result]) ∨
      ∃ first later, HasFailure.isFailure first = true ∧ results = first :: later ∧
        Settles (budget + 1) later result := by
  constructor
  · intro settles
    match results, settles with
    | [only], ⟨ends, _, _, exhausted⟩ =>
      obtain rfl : only = result := Option.some.inj ends
      refine .inl ⟨Bool.eq_false_iff.mpr fun failure => ?_, rfl⟩
      exact absurd (exhausted failure) (by simp)
    | first :: next :: later, ⟨ends, within, earlier, exhausted⟩ =>
      refine .inr ⟨first, next :: later, earlier first (by simp), rfl, ?_⟩
      exact ⟨by simpa using ends, by simpa using within,
        fun result held => earlier result (by simp [held]),
        fun failure => by simpa using exhausted failure⟩
  · rintro (⟨fine, rfl⟩ | ⟨first, later, failure, rfl, ends, within, earlier, exhausted⟩)
    · exact ⟨rfl, by simp, nofun, by simp [fine]⟩
    · obtain ⟨next, rest, rfl⟩ := List.exists_cons_of_ne_nil (List.ne_nil_of_mem
        (List.mem_of_getLast? ends))
      refine ⟨by simpa using ends, by simpa using within, ?_, fun failed => ?_⟩
      · simpa [failure] using earlier
      · simpa using exhausted failed

theorem runsFrom_answers_iff (plan : RetryPlan) (left attempt : Nat)
    (total : attempt + left = plan.runs.toNat) {result : ρ} :
    (action.runsFrom plan left (.ofNat attempt) state).Answers inputs result last ↔
      ∃ results, Settles (left + 1) results result ∧
        Performs action (acts plan attempt results) state inputs last := by
  induction left generalizing attempt state inputs with
  | zero =>
    rw [runsFrom_zero, Poll.answers_bind_iff]
    constructor
    · rintro ⟨first, later, answer, middle, rfl, runs, ends⟩
      obtain ⟨rfl, rfl, rfl⟩ := Poll.answers_ready_iff.mp ends
      refine ⟨[result], settles_one_iff.mpr rfl, performs_run_iff.mpr ?_⟩
      refine ⟨first, [], middle, rfl, runs, ?_⟩
      split
      · exact .tell .done
      · exact .done
    · rintro ⟨results, settles, performs⟩
      obtain rfl := settles_one_iff.mp settles
      obtain ⟨first, later, middle, rfl, runs, ends⟩ := performs_run_iff.mp performs
      refine ⟨first, later, result, middle, rfl, runs, ?_⟩
      split at ends
      next failure =>
        obtain ⟨rfl, rfl⟩ := performs_nil_iff.mp (performs_tell_iff.mp ends)
        simp [failure]
      next fine =>
        obtain ⟨rfl, rfl⟩ := performs_nil_iff.mp ends
        simp [fine]
  | succ left ih =>
    have bound : attempt < UInt64.size := by
      have := plan.runs.toNat_lt_size
      omega
    have next : UInt64.ofNat attempt + 1 = .ofNat (attempt + 1) :=
      UInt64.ofNat_add attempt 1 |>.symm
    rw [runsFrom_succ, Poll.answers_bind_iff]
    constructor
    · rintro ⟨first, later, answer, middle, rfl, runs, goes⟩
      split at goes
      next failure =>
        obtain ⟨between, after, ⟨⟩, woken, rfl, pauses, rest⟩ := Poll.answers_bind_iff.mp goes
        rw [next] at rest
        obtain ⟨results, settles, performs⟩ := (ih (attempt + 1) (by omega)).mp rest
        refine ⟨answer :: results, settles_succ_iff.mpr (.inr ⟨_, _, failure, rfl, settles⟩), ?_⟩
        rw [acts_cons _ _ _ settles.ne_nil]
        exact .run runs (performs_append_iff.mpr
          ⟨between, after, woken, rfl, (paused_answers_iff plan bound).mp pauses, performs⟩)
      next fine =>
        obtain ⟨rfl, rfl, rfl⟩ := Poll.answers_ready_iff.mp goes
        have fine : HasFailure.isFailure result = false := by simpa using fine
        refine ⟨[result], settles_succ_iff.mpr (.inl ⟨fine, rfl⟩), ?_⟩
        simp only [acts, fine, Bool.false_eq_true, ↓reduceIte]
        exact .run runs .done
    · rintro ⟨results, settles, performs⟩
      rcases settles_succ_iff.mp settles with
        ⟨fine, rfl⟩ | ⟨answer, results, failure, rfl, rest⟩
      · obtain ⟨first, later, middle, rfl, runs, ends⟩ := performs_run_iff.mp performs
        simp only [fine, Bool.false_eq_true, ↓reduceIte, performs_nil_iff] at ends
        obtain ⟨rfl, rfl⟩ := ends
        exact ⟨first, [], result, last, rfl, runs, by simp [fine]⟩
      · rw [acts_cons _ _ _ rest.ne_nil] at performs
        obtain ⟨first, later, middle, rfl, runs, goes⟩ := performs_run_iff.mp performs
        obtain ⟨between, after, woken, rfl, pauses, ends⟩ := performs_append_iff.mp goes
        refine ⟨first, between ++ after, answer, middle, rfl, runs, ?_⟩
        rw [if_pos failure, next]
        refine Poll.answers_bind_iff.mpr ⟨between, after, (), woken, rfl, ?_, ?_⟩
        · exact (paused_answers_iff plan bound).mpr pauses
        · exact (ih (attempt + 1) (by omega)).mpr ⟨results, rest, ends⟩

theorem runs_toNat (plan : RetryPlan) : plan.runs.toNat = max 1 plan.budget.toNat := by
  unfold RetryPlan.runs
  split
  next none => simp [none]
  next some =>
    have : plan.budget.toNat ≠ 0 := fun zero => some (UInt64.toNat_inj.mp zero)
    omega

/-- A wait ends when its time has passed, and not before. -/
theorem wait_lasts {millis : Nat} (some : 0 < millis)
    (sleeps : (Future.sleep millis state).Answers inputs () last) :
    ∃ woken later, inputs = woken :: later ∧ Host.now state + millis ≤ Host.now woken := by
  unfold Future.sleep at sleeps
  rw [if_neg (Nat.ne_of_gt some)] at sleeps
  obtain ⟨woken, later, rfl, opens, -⟩ := Poll.answers_waiting_iff.mp sleeps
  exact ⟨woken, later, rfl, of_decide_eq_true opens⟩

/-- Every call of a retried action hands back the same run, which ends with a result exactly if its
acts are those that some results of the action in turn ask for: one run more for every failure, as
far as the budget allows, and before it one pause with the number of the run that has failed. The
numbers are those that are counted, and a pause lasts as long as it says. -/
theorem retried_performs_acts (action : Action σ ρ) (plan : RetryPlan) :
    plan.runs.toNat = max 1 plan.budget.toNat ∧
      (∀ attempt ≤ plan.runs.toNat, (UInt64.ofNat attempt).toNat = attempt) ∧
      (∀ (millis : Nat) (state : σ) (inputs : List σ) (last : σ), 0 < millis →
        (Future.sleep millis state).Answers inputs () last →
        ∃ woken later, inputs = woken :: later ∧ Host.now state + millis ≤ Host.now woken) ∧
      ∃ run : Future σ ρ, (∀ state, (action.retried plan).call state = (.ok run, state)) ∧
        ∀ state inputs result last, (run state).Answers inputs result last ↔
          ∃ results, Settles plan.runs.toNat results result ∧
            Performs action (acts plan 1 results) state inputs last := by
  have budget := runs_toNat plan
  refine ⟨budget, fun attempt bound => ?_, fun _ _ _ _ => wait_lasts, _, fun state => rfl,
    fun state inputs result last => ?_⟩
  · exact UInt64.toNat_ofNat_of_lt' (Nat.lt_of_le_of_lt bound plan.runs.toNat_lt_size)
  · have total : 1 + (plan.runs.toNat - 1) = plan.runs.toNat := by omega
    have runs : (action.runsFrom plan (plan.runs.toNat - 1) (.ofNat 1) state).Answers inputs result
        last ↔ _ := runsFrom_answers_iff plan _ 1 total
    rwa [show plan.runs.toNat - 1 + 1 = plan.runs.toNat by omega] at runs

end

/-- Fails at its first run and succeeds from then on. -/
def fickle : Action (Notebook Bool) (Verdict Nat) :=
  .lazily fun book =>
    if book.cell then .ready (.success 7) book
    else .ready (.failure .bottom) { book with cell := true }

def twoMillis : Duration := .ofMillis 2

def woken : Notebook Bool :=
  { Notebook.opened true with time := 2, events := [.backingOff 1 twoMillis] }

theorem fickle_retried_once :
    ∃ run, (fickle.retried (.doubling twoMillis 3)).call (.opened false) =
        (.ok run, .opened false) ∧
      (run (.opened false)).Answers [woken] (.success 7)
        (Host.trace (.retrying 2 3) (Host.spend woken)) := by
  obtain ⟨-, -, -, run, called, answers⟩ :=
    retried_performs_acts fickle (.doubling twoMillis 3)
  refine ⟨run, called _, (answers _ _ _ _).mpr ⟨[.failure .bottom, .success 7], ?_, ?_⟩⟩
  · exact ⟨rfl, by decide, by simp [HasFailure.isFailure, Verdict.isFailure], nofun⟩
  · have wakes : (Future.sleep twoMillis.millis { Notebook.opened true with
        events := [.backingOff 1 twoMillis] }).Answers [woken] () (Host.spend woken) :=
      .resume rfl .ready
    have fails : (fickle.awaited (.opened false)).Answers [] (.failure .bottom) (.opened true) :=
      .ready
    have succeeds : (fickle.awaited (Host.trace (.retrying 2 3) (Host.spend woken))).Answers []
        (.success 7) (Host.trace (.retrying 2 3) (Host.spend woken)) := .ready
    exact .run fails (.tell (.wait wakes (.tell (.run succeeds .done))))

end Retry
end Deferred
