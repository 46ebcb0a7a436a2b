import Deferred.Proofs.Cache.Policies
import Deferred.Proofs.Laws.Listeners

/-! Repetition. Running an action again at once where it has failed is falling back on the same
action. So a loop in a loop is one loop with the product of the budgets, and for attempts it is an
iterated alternative. Between the runs nothing is waited for, and nothing but the events of the
loops tells the two sides of either law apart. -/

namespace Deferred

variable {σ κ α ρ : Type}

namespace Action

variable [HasFailure ρ] (action : Action σ ρ)

theorem awaited_repeated (times : Nat) :
    (action.repeated times).awaited =
      action.awaited >>= fallBack HasFailure.isFailure (List.replicate times action) := rfl

/-- Each action of the list may as well be listed as the runs that it stands for. -/
theorem fallBack_replicate (times count : Nat) (result : ρ) :
    fallBack HasFailure.isFailure (List.replicate count (action.repeated times)) result =
      fallBack HasFailure.isFailure (List.replicate (count * (times + 1)) action) result := by
  induction count generalizing result with
  | zero => rw [Nat.zero_mul]; rfl
  | succ count ih =>
    have runs : List.replicate ((count + 1) * (times + 1)) action =
        (action :: List.replicate times action) ++
          List.replicate (count * (times + 1)) action := by
      rw [← List.replicate_succ, List.replicate_append_replicate, Nat.succ_mul, Nat.add_comm]
    rw [runs, List.replicate_succ, fallBack_block (action.awaited_repeated times),
      fallBack_append, fallBack_append]
    exact congrArg (fallBack _ _ result >>= ·) (funext ih)

theorem awaited_repeated_repeated (inner outer : Nat) :
    ((action.repeated inner).repeated outer).awaited =
      (action.repeated (inner + outer * (inner + 1))).awaited := by
  -- the flat list is that of the first inner loop, and then of as many whole ones as are left
  simp only [awaited_repeated, ← List.replicate_append_replicate, bind_assoc]
  refine congrArg (action.awaited >>= ·) (funext fun result => ?_)
  rw [fallBack_append]
  exact congrArg (fallBack _ _ result >>= ·) (funext (action.fallBack_replicate inner outer))

end Action

/-- The program in which each run of the action begins at its first poll, next to a listener. -/
abbrev Scene.playHeard (action : Action (σ × κ) ρ) (start : σ) (ear : κ) (moves : List (Move σ)) :
    Scene (σ × κ) ρ :=
  .play (.lazily action.awaited) (.opened (start, ear)) (moves.map .outside)

/-- Programs of actions that both do the same, but for what they tell. -/
theorem Action.Echoes.alike {action other : Action σ ρ} {heard again : Action (σ × κ) ρ}
    (echoes : action.Echoes heard) (repeats : other.Echoes again)
    (same : action.awaited = other.awaited) (start : σ) (ear hears : κ) (moves : List (Move σ)) :
    (Scene.playHeard heard start ear moves).Alike (Scene.playHeard again start hears moves) := by
  have futures : ∀ s t, SameBeside (fun _ _ => True) s t →
      (heard.awaited s).InStep (.deaf σ κ κ) (Pace.same _) () (again.awaited t) := by
    rintro ⟨state, ear⟩ ⟨_, hears⟩ ⟨rfl, -⟩
    refine (echoes state ear).inStep ?_
    rw [same]
    exact repeats state hears
  exact Scene.play_alike futures trivial moves

/-! ### Loops in loops -/

theorem Retry.runs_atOnce (budget : UInt64) :
    (RetryPlan.atOnce budget).runs.toNat = max 1 budget.toNat :=
  runs_toNat _

/-- A loop in a loop runs the action as often as one loop with the product of the two budgets, and
with the same results: in any program the runs stand alike after every move, and have left the same
state and the same number of invocations. A budget of none counts as one, like everywhere. The
listener may have heard something else. -/
theorem nested_loops_multiply [Host σ] [HasFailure ρ] (tell : Event → κ → κ) (action : Action σ ρ)
    (inner outer : UInt64) (fits : max 1 inner.toNat * max 1 outer.toNat < UInt64.size) (start : σ)
    (ear hears : κ) (moves : List (Move σ)) :
    let product := UInt64.ofNat (max 1 inner.toNat * max 1 outer.toNat)
    let nested := (action.counted.along.retriedHeard tell (.atOnce inner)).retriedHeard tell
      (.atOnce outer)
    let flat := action.counted.along.retriedHeard tell (.atOnce product)
    (Scene.playHeard nested (start, 0) ear (moves.map .outside)).Alike
      (Scene.playHeard flat (start, 0) hears (moves.map .outside)) := by
  intro product nested flat
  have total : product.toNat = max 1 inner.toNat * max 1 outer.toNat :=
    UInt64.toNat_ofNat_of_lt' fits
  have runs : (RetryPlan.atOnce product).runs.toNat - 1 =
      (max 1 inner.toNat - 1) + (max 1 outer.toNat - 1) * (max 1 inner.toNat - 1 + 1) := by
    rw [Retry.runs_atOnce, total]
    obtain ⟨i, hi⟩ : ∃ i, max 1 inner.toNat = i + 1 := ⟨max 1 inner.toNat - 1, by omega⟩
    obtain ⟨o, ho⟩ : ∃ o, max 1 outer.toNat = o + 1 := ⟨max 1 outer.toNat - 1, by omega⟩
    have all : (i + 1) * (o + 1) = i + o * (i + 1) + 1 := by rw [Nat.mul_comm, Nat.succ_mul]; omega
    rw [hi, ho, all, Nat.add_sub_cancel, Nat.add_sub_cancel]
    omega
  have echoes := action.counted.echoes_along (κ := κ)
  refine Action.Echoes.alike ((echoes.retriedHeard tell inner).retriedHeard tell outer)
    (echoes.retriedHeard tell product) ?_ (start, 0) ear hears (moves.map .outside)
  rw [Action.awaited_repeated_repeated, runs, Retry.runs_atOnce, Retry.runs_atOnce]

/-- Fails four times before it succeeds. -/
def sluggish : Action (Notebook Nat) (Verdict Nat) :=
  .lazily fun book =>
    if book.cell < 4 then .ready (.failure .bottom) { book with cell := book.cell + 1 }
    else .ready (.success 7) book

/-- Two runs at a time, at most three times, and the fifth run succeeds. -/
theorem sluggish_loops_multiply :
    max 1 (2 : UInt64).toNat * max 1 (3 : UInt64).toNat < UInt64.size ∧
      let tell := fun (event : Event) heard => heard ++ [event]
      let moves := [Move.call, .poll 0].map Move.outside
      let nested := Scene.playHeard ((sluggish.counted.along.retriedHeard tell
        (.atOnce 2)).retriedHeard tell (.atOnce 3)) (.opened 0, 0) [] moves
      let flat := Scene.playHeard (sluggish.counted.along.retriedHeard tell (.atOnce 6))
        (.opened 0, 0) [] moves
      nested.Alike flat ∧ nested.state.1.2 = 5 ∧ nested.state.2 ≠ flat.state.2 := by
  refine ⟨by decide, ?_, by decide +kernel, by decide +kernel⟩
  have law := nested_loops_multiply (fun event heard => heard ++ [event]) sluggish 2 3 (by decide)
    (.opened 0) [] [] [.call, .poll 0]
  have product : UInt64.ofNat (max 1 (2 : UInt64).toNat * max 1 (3 : UInt64).toNat) = 6 := by decide
  rw [product] at law
  exact law

/-! ### Iterated alternatives -/

/-- The same alternative again and again, so many times after the first one. -/
def Choice.copies {ι : Type} (alternative : ι) : Nat → Choice ι
  | 0 => only alternative
  | times + 1 => either (copies alternative times) (only alternative)

theorem Choice.first_copies {ι : Type} (alternative : ι) (times : Nat) :
    (copies alternative times).first = alternative := by
  induction times with
  | zero => rfl
  | succ times ih => exact ih

theorem Choice.later_copies {ι : Type} (alternative : ι) (times : Nat) :
    (copies alternative times).later = List.replicate times alternative := by
  induction times with
  | zero => rfl
  | succ times ih =>
    rw [List.replicate_succ']
    exact congrArg (· ++ [alternative]) ih

/-- Alternatives and immediate retries. -/
theorem alternatives_and_repetition [Host σ] :
    (∀ α, Alternatives Verdict.isFailure (Attempt.orElse (σ := σ) (α := α))) ∧
      (∀ α, Alternatives Finding.isAbsentOrFailure (Search.orElse (σ := σ) (α := α))) ∧
      ∀ (α κ : Type) (tell : Event → κ → κ) (attempt : Attempt σ α) (budget : UInt64) (start : σ)
        (ear hears : κ) (moves : List (Move σ)),
        (Scene.playHeard (attempt.along.retriedHeard tell (.atOnce budget)) start ear moves).Alike
          (Scene.playHeard
            (((Choice.copies attempt (budget.toNat - 1)).join Attempt.orElse).along) start hears
            moves) := by
  refine ⟨fun α => Attempt.mending_orElse.alternatives, fun α => Search.mending_orElse.alternatives,
    ?_⟩
  intro α κ tell attempt budget start ear hears moves
  refine Action.Echoes.alike (attempt.echoes_along.retriedHeard tell budget)
    (Action.echoes_along _) ?_ start ear hears moves
  have times : max 1 budget.toNat - 1 = budget.toNat - 1 := by omega
  rw [Attempt.mending_orElse.awaited_join, Choice.first_copies, Choice.later_copies,
    Action.awaited_repeated, Retry.runs_atOnce, times]
  rfl

end Deferred
