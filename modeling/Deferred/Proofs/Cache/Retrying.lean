import Deferred.Proofs.Cache.SharedProgram
import Deferred.Proofs.Pace.Uses
import Deferred.Proofs.Retry

/-! A cache around retries and retries around a cache. Where one use follows the other it makes no
difference on which side of the loop the latch is set: the loop ends in the poll in which the first
good result comes, and up to then the latch is empty on either side. -/

namespace Deferred

variable {σ ρ κ : Type}

/-! ### Waiting beside a cell -/

theorem Poll.along_bind {α β : Type} (poll : Poll σ α) (next : α → σ → Poll σ β) (cell : κ) :
    (poll.bind next).along cell =
      (poll.along cell).bind fun value (s : σ × κ) => (next value s.1).along s.2 := by
  induction poll generalizing cell with
  | ready => rfl
  | panic => rfl
  | waiting wait resume state ih =>
    simp only [bind, along]
    congr 1
    funext s
    exact ih s.1 s.2
  | spawn child rest state ih =>
    simp only [bind, along]
    congr 1
    funext s
    exact ih s.1 s.2

namespace Future

theorem along_bind {α β : Type} (future : Future σ α) (next : α → Future σ β) :
    (future >>= next).along = (future.along >>= fun value => (next value).along :
      Future (σ × κ) β) :=
  funext fun s => Poll.along_bind (future s.1) next s.2

variable [Host σ]

theorem afford_along : (afford : Future (σ × κ) Unit) = afford.along := by
  funext s
  show (if 0 < Host.allowance s.1 then _ else _) = (afford s.1).along s.2
  unfold afford
  split <;> rfl

theorem pay_along : (pay : Future (σ × κ) Unit) = pay.along := by
  unfold pay
  rw [along_bind, afford_along]
  rfl

theorem sleep_along (millis : Nat) :
    (sleep millis : Future (σ × κ) Unit) = (sleep millis).along := by
  funext s
  unfold sleep along
  rw [pay_along]
  split <;> rfl

end Future

theorem Retry.paused_along [Host σ] (plan : RetryPlan) (attempt : UInt64) :
    (paused plan attempt : Future (σ × κ) Unit) = (paused plan attempt).along := by
  unfold paused
  cases plan.waitBefore attempt.toNat with
  | none => rfl
  | some delay =>
    dsimp only
    rw [Future.along_bind, Future.along_bind, Future.sleep_along]
    rfl

/-! ### In step -/

namespace Retry

variable [HasFailure ρ] {past : List (Running (σ × Latch ρ) ρ)}

/-- The latch of either program keeps the first good result of the runs so far. -/
def Kept (past : List (Running (σ × Latch ρ) ρ)) (latch held : Latch ρ) : Prop :=
  latch = held ∧ latch.value = settled past

/-- While a run is going on nothing is kept, since it would not have begun otherwise. -/
def Open (past : List (Running (σ × Latch ρ) ρ)) (latch held : Latch ρ) : Prop :=
  latch = .empty ∧ held = .empty ∧ settled past = none

section
variable {run : Running (σ × Latch ρ) ρ} (bad : run.good? = none) (latch held : Latch ρ)
include bad

theorem Kept.concat (kept : Kept past latch held) : Kept (past ++ [run]) latch held :=
  ⟨kept.1, kept.2.trans (settled_concat_of_none bad).symm⟩

theorem Open.kept (empty : Open past latch held) : Kept (past ++ [run]) latch held := by
  obtain ⟨rfl, rfl, none⟩ := empty
  exact Kept.concat bad _ _ ⟨rfl, none.symm⟩

end

/-- Both keep the same between the uses, and nothing in the course of a use. -/
abbrev usage (σ ρ : Type) [HasFailure ρ] : Usage (σ × Latch ρ) (σ × Latch ρ) ρ where
  Kind := Unit
  left past := SameBeside (Kept past)
  pace past _ := .beside σ (Open past) (Kept (past ++ [.dropped]))
  tasks := SameTask
  allowed _ := True

theorem turns_outside (turn : σ → σ) : (usage σ ρ).Turns (outside turn) (outside turn) where
  alike _ _ _ _ _ alike := ⟨(), congrArg turn alike.1, alike.2⟩
  left _ _ _ left := ⟨congrArg turn left.1, left.2⟩

theorem ignores : (usage σ ρ).Ignores := by
  rintro past s t ⟨same, kept⟩
  exact ⟨same, Kept.concat rfl _ _ kept⟩

theorem cached_of_empty (action : Action (σ × Latch ρ) ρ) (state : σ) :
    (action.cached .own).awaited (state, .empty) =
      (action.awaited (state, .empty)).bind fun result after => Cached.settle .own result after :=
  Cached.cached_awaited _ _ _

theorem cached_of_set (kept : ρ) (action : Action (σ × Latch ρ) ρ) (state : σ) :
    (action.cached .own).awaited (state, ⟨some kept⟩) = .ready kept (state, ⟨some kept⟩) :=
  Cached.cached_awaited _ _ _

theorem settle_of_failure {result : ρ} (failure : HasFailure.isFailure result = true) (state : σ) :
    Cached.settle .own result (state, .empty) = .ready result (state, .empty) := by
  show Poll.ready (Latch.empty.offer result).1 (state, (Latch.empty.offer result).2) = _
  rw [Latch.offer, if_pos failure]

theorem settle_of_good {result : ρ} (good : HasFailure.isFailure result = false) (state : σ) :
    Cached.settle .own result (state, .empty) = .ready result (state, ⟨some result⟩) := by
  show Poll.ready (Latch.empty.offer result).1 (state, (Latch.empty.offer result).2) = _
  rw [Latch.offer, if_neg (Bool.eq_false_iff.mp good)]
  rfl

/-- An invocation beside a latch that is empty. -/
theorem invocation_inStep (none : settled past = none) (action : Action σ ρ) (state : σ) :
    (action.along.awaited (state, Latch.empty (ρ := ρ))).InStep ((usage σ ρ).pace past ())
      (Pace.same _) () (action.along.awaited (state, .empty)) := by
  rw [Action.awaited_along]
  exact Poll.inStep_along (Open.kept rfl) _ ⟨rfl, rfl, none⟩

/-- A panic leaves the latch empty. -/
theorem leaving_of_panic {α : Type} (i : ((usage σ ρ).pace past ()).Index)
    (payload other : Payload) (s t : σ × Latch ρ)
    (same : Pace.same _ i (.error payload : Except Payload α) (.error other) s t) :
    (usage σ ρ).leaving past () i (.error payload) (.error other) s t := by
  obtain ⟨⟨⟩, same, empty⟩ := same
  exact ⟨rfl, same, Open.kept rfl _ _ empty⟩

/-- How both end with a failure, which leaves the latch empty. -/
theorem leaving_of_failure (none : settled past = none) {result : ρ}
    (failure : HasFailure.isFailure result = true) (state : σ) :
    (usage σ ρ).leaving past () () (.ok result) (.ok result) (state, .empty) (state, .empty) :=
  ⟨rfl, rfl, Open.kept (Running.good?_of_failure failure) _ _ ⟨rfl, rfl, none⟩⟩

/-- How both end with a result that is kept from then on. -/
theorem leaving_of_good (none : settled past = none) {result : ρ}
    (good : HasFailure.isFailure result = false) (state : σ) :
    (usage σ ρ).leaving past () () (.ok result) (.ok result) (state, ⟨some result⟩)
      (state, ⟨some result⟩) := by
  refine ⟨rfl, rfl, rfl, ?_⟩
  show some result = settled (past ++ [.answered result])
  rw [settled_concat, none, Running.good?_of_good good, Option.none_or]

section
variable [Host σ]

theorem paused_inStep (none : settled past = none) (plan : RetryPlan) (attempt : UInt64)
    (state : σ) :
    (paused plan attempt (state, Latch.empty (ρ := ρ))).InStep ((usage σ ρ).pace past ())
      (Pace.same _) () (paused plan attempt (state, Latch.empty (ρ := ρ))) := by
  rw [paused_along]
  exact Poll.inStep_along (Open.kept rfl) _ ⟨rfl, rfl, none⟩

/-- The loop with the latch around it, and the loop with the latch in it. -/
theorem runsFrom_inStep (none : settled past = none) (action : Action σ ρ) (plan : RetryPlan)
    (left : Nat) (attempt : UInt64) (state : σ) :
    ((action.along.runsFrom plan left attempt (state, .empty)).bind
        fun result after => Cached.settle .own result after).InStep
      ((usage σ ρ).pace past ()) ((usage σ ρ).leaving past ()) ()
      ((action.along.cached .own).runsFrom plan left attempt (state, .empty)) := by
  induction left generalizing attempt state with
  | zero =>
    rw [runsFrom_zero, runsFrom_zero, cached_of_empty, Poll.bind_assoc, Poll.bind_assoc]
    refine (invocation_inStep none action state).bind ?_ leaving_of_panic
    rintro _ result _ ⟨s, _⟩ ⟨_, _⟩ ⟨⟨⟩, rfl, rfl, rfl, -⟩
    cases ends : HasFailure.isFailure result with
    | true =>
      have told := settle_of_failure ends (Host.trace (.retriesExhausted plan.runs) s)
      rw [settle_of_failure ends]
      simp only [Poll.bind, ends, ↓reduceIte]
      rw [show Host.trace _ (s, Latch.empty) = (Host.trace _ s, Latch.empty) from rfl, told]
      exact .ready (leaving_of_failure none ends _)
    | false =>
      rw [settle_of_good ends]
      simp only [Poll.bind, ends, Bool.false_eq_true, ↓reduceIte]
      rw [settle_of_good ends]
      exact .ready (leaving_of_good none ends s)
  | succ left ih =>
    rw [runsFrom_succ, runsFrom_succ, cached_of_empty, Poll.bind_assoc, Poll.bind_assoc]
    refine (invocation_inStep none action state).bind ?_ leaving_of_panic
    rintro _ result _ ⟨s, _⟩ ⟨_, _⟩ ⟨⟨⟩, rfl, rfl, rfl, -⟩
    cases ends : HasFailure.isFailure result with
    | true =>
      rw [settle_of_failure ends]
      simp only [Poll.bind, ends, ↓reduceIte]
      rw [Poll.bind_assoc _ fun _ => action.along.runsFrom plan left (attempt + 1)]
      refine (paused_inStep none plan attempt s).bind ?_ leaving_of_panic
      rintro _ _ _ ⟨s, _⟩ ⟨_, _⟩ ⟨⟨⟩, rfl, rfl, rfl, -⟩
      exact ih (attempt + 1) s
    | false =>
      rw [settle_of_good ends]
      simp only [Poll.bind, ends, Bool.false_eq_true, ↓reduceIte]
      rw [settle_of_good ends]
      exact .ready (leaving_of_good none ends s)

/-- What is kept is answered at once by the loop in which the latch is. -/
theorem retried_of_set {kept : ρ} (good : HasFailure.isFailure kept = false)
    (action : Action (σ × Latch ρ) ρ) (plan : RetryPlan) (state : σ) :
    ((action.cached .own).retried plan).awaited (state, ⟨some kept⟩) =
      .ready kept (state, ⟨some kept⟩) := by
  show (action.cached .own).runsFrom plan _ _ (state, ⟨some kept⟩) = _
  cases plan.runs.toNat - 1 with
  | zero =>
    rw [runsFrom_zero, cached_of_set]
    simp [Poll.bind, good]
  | succ left =>
    rw [runsFrom_succ, cached_of_set]
    simp [Poll.bind, good]

theorem lawful (action : Action σ ρ) (plan : RetryPlan) :
    (usage σ ρ).Lawful ((action.along.retried plan).cached .own).awaited
      ((action.along.cached .own).retried plan).awaited where
  orderly _ _ := {
    deadline := fun waits => waits.deadline
    opens := fun waits alike => waits.opens _ _ alike
    releases := fun waits alike => waits.releases _ _ alike
    tasks := id
    excused := False.elim
    late := id
    slow := id }
  begins past s t left := by
    obtain ⟨state, latch⟩ := s
    obtain ⟨_, _⟩ := t
    obtain ⟨rfl, rfl, value⟩ := left
    refine ⟨(), (), ?_⟩
    rcases latch with ⟨_ | kept⟩
    · exact runsFrom_inStep value.symm action plan _ 1 state
    · rw [cached_of_set, retried_of_set (isFailure_of_settled value.symm)]
      refine .ready ⟨rfl, rfl, rfl, ?_⟩
      rw [settled_concat, ← value]
      rfl

end

/-- The latches, at whatever point the last use is. -/
theorem kept_of_during {first second : Future (σ × Latch ρ) ρ} {before : List (Running _ ρ)}
    {scene other : Scene (σ × Latch ρ) ρ} (during : (usage σ ρ).During
      ((usage σ ρ).Stands first second past) past before scene other) :
    SameBeside (Kept scene.runs) scene.state other.state := by
  obtain ⟨⟨run, _, runs, -, stands⟩, -, -⟩ := during
  rw [runs]
  cases stands with
  | fresh left => exact ⟨left.1, Kept.concat rfl _ _ left.2⟩
  | begun begun =>
    cases begun with
    | waits alike => exact ⟨alike.1, Open.kept rfl _ _ alike.2⟩
    | done _ left => exact left

end Retry

/-- It does not matter whether the latch is set after the loop or in it. In the course of any uses,
one after the other, the runs stand alike, have spawned the same tasks and have left the same state,
the latch included, in which the action may count its invocations. The latch keeps the first result
of the runs that is not a failure, which is answered in the first poll, and this changes nothing. -/
theorem cached_retried_commute [Host σ] [HasFailure ρ] (action : Action σ ρ) (plan : RetryPlan)
    (start : σ) (uses : List (List (σ → σ))) (turns : List (σ → σ)) :
    let moves := Move.course (uses.map (List.map outside)) (turns.map outside)
    let around := Scene.play ((action.along.retried plan).cached .own)
      (.opened (start, .empty)) moves
    let inside := Scene.play ((action.along.cached .own).retried plan)
      (.opened (start, .empty)) moves
    around.Alike inside ∧ around.state = inside.state ∧
      around.state.2.value = settled around.runs ∧
      ∀ kept, around.state.2.value = some kept → ∀ state : σ,
        ((action.along.retried plan).cached .own).awaited (state, around.state.2) =
            .ready kept (state, around.state.2) ∧
          ((action.along.cached .own).retried plan).awaited (state, around.state.2) =
            .ready kept (state, around.state.2) := by
  intro moves around inside
  have lawful := Retry.lawful action plan
  have all : ∀ moves : List (σ → σ),
      List.Forall₂ (Retry.usage σ ρ).Turns (moves.map outside) (moves.map outside) := by
    intro moves
    rw [List.forall₂_map_left_iff, List.forall₂_map_right_iff, List.forall₂_same]
    exact fun turn _ => Retry.turns_outside turn
  have every : List.Forall₂ (List.Forall₂ (Retry.usage σ ρ).Turns)
      (uses.map (List.map outside)) (uses.map (List.map outside)) := by
    rw [List.forall₂_map_left_iff, List.forall₂_map_right_iff, List.forall₂_same]
    exact fun moves _ => all moves
  have begun : (Retry.usage σ ρ).left [] (start, .empty) (start, .empty) := ⟨rfl, rfl, rfl⟩
  obtain ⟨past, before, during⟩ := lawful.course begun every (fun _ => Retry.ignores)
    (Scene.stopsIn_of_forall (fun _ => trivial) _ _ moves) (all turns)
  obtain ⟨same, cells, value⟩ := Retry.kept_of_during during
  have states : around.state = inside.state := Prod.ext same cells
  refine ⟨⟨same, during.standings lawful, during.tasks⟩, states, value, ?_⟩
  intro kept held state
  have good := isFailure_of_settled (value.symm.trans held)
  rw [show around.state.2 = ⟨some kept⟩ from congrArg Latch.mk held]
  exact ⟨Retry.cached_of_set kept _ state, Retry.retried_of_set good _ plan state⟩

end Deferred
