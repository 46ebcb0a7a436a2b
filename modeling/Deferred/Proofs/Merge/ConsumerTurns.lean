import Deferred.Proofs.Merge.Polls
import Deferred.Proofs.Merge.Wakeups

/-! One turn of the consumer of a merged run, from the point where it stopped to the next one. -/

namespace Deferred.Merge

variable {σ α : Type}

/-- The steps of the consumer in a poll, during which nobody else acts. -/
inductive Consumer.Steps (flag : Flag) :
    Consumer → Hub α → List α → Consumer → Hub α → Prop where
  | refl {consumer hub} : Steps flag consumer hub [] consumer hub
  | step {consumer hub yielded next rest more last after}
      (step : Consumer.Step flag consumer hub yielded next rest)
      (steps : Steps flag next rest more last after) :
      Steps flag consumer hub (yielded ++ more) last after

theorem Consumer.Steps.trans {flag : Flag} {consumer next last : Consumer} {hub rest after : Hub α}
    {yielded more : List α} (steps : Steps flag consumer hub yielded next rest)
    (others : Steps flag next rest more last after) :
    Steps flag consumer hub (yielded ++ more) last after := by
  induction steps with
  | refl => exact others
  | step step _ ih =>
    rw [List.append_assoc]
    exact .step step (ih others)

theorem Consumer.Steps.ends {flag : Flag} {consumer last : Consumer} {hub after : Hub α}
    {yielded : List α} (steps : Steps flag consumer hub yielded last after) :
    after.ends = hub.ends := by
  induction steps with
  | refl => rfl
  | step step _ ih => exact ih.trans step.frame.2

/-- A look, after which the consumer has an item, ends or selects. -/
theorem Consumer.Steps.look {flag : Flag} {hub rest : Hub α} {turn : Turn α}
    (looked : hub.look flag.raised = (turn, rest)) :
    match turn with
    | .cancelled count => Steps flag .looks hub [] (.ended (.cancelled count)) rest
    | .item value => Steps flag .looks hub [value] .rests rest
    | .finished => Steps flag .looks hub [] (.ended .finished) rest
    | .waits => Steps flag .looks hub [] .selects rest := by
  unfold Hub.look at looked
  split at looked
  case isTrue raised =>
    obtain ⟨rfl, rfl⟩ := Prod.mk.inj looked
    exact .step (.cancelled raised) .refl
  case isFalse lowered =>
    have pops : ∀ {yielded : List α} {last : Consumer} {after : Hub α},
        Steps flag .pops hub yielded last after → Steps flag .looks hub yielded last after :=
      .step (.look (Bool.eq_false_iff.mpr lowered))
    rcases popped : hub.pop with ⟨_ | value, idle⟩ <;> rw [popped] at looked <;>
      dsimp only at looked
    · split at looked
      case isTrue running =>
        obtain ⟨rfl, rfl⟩ := Prod.mk.inj looked
        exact pops (.step (.none popped) (.step (.runs running) .refl))
      case isFalse closed =>
        have drains : ∀ {yielded : List α} {last : Consumer} {after : Hub α},
            Steps flag .drains idle yielded last after →
              Steps flag .looks hub yielded last after := fun steps =>
          pops (.step (.none popped) (.step (.closed (Bool.eq_false_iff.mpr closed)) steps))
        rcases again : idle.pop with ⟨_ | value, spent⟩ <;> rw [again] at looked <;>
          dsimp only at looked <;> obtain ⟨rfl, rfl⟩ := Prod.mk.inj looked
        · exact drains (.step (.finish again) .refl)
        · exact drains (.step (.last again) .refl)
    · obtain ⟨rfl, rfl⟩ := Prod.mk.inj looked
      exact pops (.step (.item popped) .refl)

variable [Host σ]

theorem consume_succ (place : Place σ (Hub α)) (cancellation : Cancellation σ) (left : Nat)
    (state : σ) :
    consume place cancellation (left + 1) state =
      match (place.get state).look (cancellation.flag.get state).raised with
      | (.cancelled dropped, hub) =>
          .ended (Host.trace (.mergeCancelled dropped) (place.set hub state))
      | (.item value, hub) =>
          .item value (consume place cancellation left) (detach place) (place.set hub state)
      | (.finished, hub) => .ended (place.set hub state)
      | (.waits, hub) =>
          afford place (await place cancellation (consume place cancellation left))
            (place.set hub state) := by
  rcases looked : (place.get state).look (cancellation.flag.get state).raised with ⟨_ | _, hub⟩ <;>
    simp [consume, Place.step, Cancellation.isCancelled, looked]

theorem await_eq (place : Place σ (Hub α)) (cancellation : Cancellation σ) (next : Flow σ α)
    (state : σ) :
    await place cancellation next state =
      match (place.get state).listen with
      | (true, hub) => next (place.set hub state)
      | (false, hub) =>
          if (cancellation.flag.get (place.set hub state)).raised then
            next (answer place (place.set hub state))
          else .waiting ⟨none, fun s => (place.get s).signal.isCalled ||
              (cancellation.wait (cancellation.flag.get (place.set hub state)).version).opens s,
              detach place⟩
            (afford place fun s => next (answer place s)) (place.set hub state) := by
  rcases listened : (place.get state).listen with ⟨_ | _, hub⟩
  · simp only [await, Place.step, Cancellation.isCancelled, listened]
    rfl
  · simp only [await, Place.step, listened]

/-- What is left of the run of the consumer at this stage. Before its first poll it can be dropped
without a trace. -/
inductive Consumer.Shows (place : Place σ (Hub α)) (cancellation : Cancellation σ)
    (feeds : List (Feed σ α)) : Consumer → Hub α → Flag → Option (Cursor σ α) → Prop where
  | launches {hub flag} : Shows place cancellation feeds .launches hub flag
      (some ⟨.passed, flow place feeds cancellation⟩)
  | unpolled {hub flag} : Shows place cancellation feeds .launches hub flag none
  | rests {hub flag left} : Shows place cancellation feeds .rests hub flag
      (some ⟨{ Wait.passed with release := detach place }, consume place cancellation left⟩)
  | selects {hub flag left} : Shows place cancellation feeds .selects hub flag
      (some ⟨Wait.turn.holding (detach place),
        await place cancellation (consume place cancellation left)⟩)
  | waits {hub flag seen left} : Shows place cancellation feeds (.waits seen) hub flag
      (some ⟨⟨none, fun s => (place.get s).signal.isCalled || (cancellation.wait seen).opens s,
          detach place⟩,
        afford place fun s => consume place cancellation left (answer place s)⟩)
  | called {hub flag seen left} (called : hub.signal.isCalled = true ∨ flag.raised = true) :
      Shows place cancellation feeds (.waits seen) hub flag
        (some ⟨Wait.turn.holding (detach place),
          fun s => consume place cancellation left (answer place s)⟩)
  | spent {hub flag} : Shows place cancellation feeds .looks hub flag
      (some ⟨Wait.forever.holding (detach place), Flow.empty⟩)
  | gone {hub flag consumer} (gone : consumer.isGone = true) :
      Shows place cancellation feeds consumer hub flag none

theorem Consumer.Shows.mono {place : Place σ (Hub α)} {cancellation : Cancellation σ}
    {feeds : List (Feed σ α)} {consumer : Consumer} {hub after : Hub α} {flag mark : Flag}
    {cursor : Option (Cursor σ α)}
    (shows : Shows place cancellation feeds consumer hub flag cursor)
    (called : hub.signal.isCalled = true → after.signal.isCalled = true)
    (raised : flag.raised = true → mark.raised = true) :
    Shows place cancellation feeds consumer after mark cursor := by
  cases shows with
  | launches => exact .launches
  | unpolled => exact .unpolled
  | rests => exact .rests
  | selects => exact .selects
  | waits => exact .waits
  | called known => exact .called (known.imp called raised)
  | spent => exact .spent
  | gone gone => exact .gone gone

/-- By steps of its own the consumer comes from this state to what is left of its run. -/
def Consumer.Comes (place : Place σ (Hub α)) (cancellation : Cancellation σ)
    (feeds : List (Feed σ α)) (consumer : Consumer) (state : σ) (items : Items σ α) : Prop :=
  ∃ after, Steps (cancellation.flag.get state) consumer (place.get state) items.yields after
      (place.get items.state) ∧
    cancellation.flag.get items.state = cancellation.flag.get state ∧ items.children = [] ∧
    Shows place cancellation feeds after (place.get items.state)
      (cancellation.flag.get items.state) items.cursor

namespace Consumer

variable {place : Place σ (Hub α)} {cancellation : Cancellation σ} {feeds : List (Feed σ α)}
  {state after : σ} {items : Items σ α}

theorem Comes.children {consumer : Consumer}
    (comes : Comes place cancellation feeds consumer state items) : items.children = [] := by
  obtain ⟨-, -, -, none, -⟩ := comes
  exact none

theorem Comes.after_steps {consumer next : Consumer}
    (comes : Comes place cancellation feeds next after items)
    (flag : cancellation.flag.get after = cancellation.flag.get state)
    (steps : Steps (cancellation.flag.get state) consumer (place.get state) ([] : List α) next
      (place.get after)) : Comes place cancellation feeds consumer state items := by
  obtain ⟨last, others, same, children, shows⟩ := comes
  rw [flag] at others same
  exact ⟨last, steps.trans others, same, children, shows⟩

theorem Comes.head {consumer next : Consumer}
    (comes : Comes place cancellation feeds next after items)
    (flag : cancellation.flag.get after = cancellation.flag.get state)
    (step : Consumer.Step (cancellation.flag.get state) consumer (place.get state) ([] : List α)
      next (place.get after)) : Comes place cancellation feeds consumer state items :=
  comes.after_steps flag (.step step .refl)

section turns

variable (apart : Apart place cancellation) {left : Nat}
  (looks : ∀ s, Comes place cancellation feeds .looks s (consume place cancellation left s))
include apart looks

/-- Nobody called the consumer, which goes on because of the flag. -/
theorem comes_unlisten {consumer : Consumer} (silent : ¬(place.get state).signal.isCalled = true)
    (step : Consumer.Step (cancellation.flag.get state) consumer (place.get state) ([] : List α)
      .looks (place.get state).unlisten) :
    Comes place cancellation feeds consumer state
      (consume place cancellation left (answer place state)) := by
  have goes : answer place state = Host.spend (place.modify Hub.unlisten state) := if_neg silent
  refine (looks (answer place state)).head ?_ ?_ <;> rw [goes]
  · exact (apart.flag_allow _ _).trans (apart.flag_set _ _)
  · have hub : place.get (Host.spend (place.modify Hub.unlisten state)) =
        (place.get state).unlisten := (apart.hub_allow _ _).trans (apart.modify _ _).1
    rw [hub]
    exact step

/-- The consumer was called, or the flag is raised. -/
theorem comes_answer {seen : Nat} (noted : (cancellation.flag.get state).Noted seen)
    (called : (place.get state).signal.isCalled = true ∨
      (cancellation.flag.get state).raised = true) :
    Comes place cancellation feeds (.waits seen) state
      (consume place cancellation left (answer place state)) := by
  by_cases hears : (place.get state).signal.isCalled = true
  · have heard : answer place state = place.modify Hub.hear state := if_pos hears
    refine (looks (answer place state)).head ?_ ?_ <;> rw [heard]
    · exact apart.flag_set _ _
    · rw [(apart.modify _ _).1]
      exact .answer hears
  · exact comes_unlisten apart looks hears (.obey (noted.calls (called.resolve_left hears)))

theorem comes_await : Comes place cancellation feeds .selects state
    (await place cancellation (consume place cancellation left) state) := by
  rw [await_eq]
  rcases listened : (place.get state).listen with ⟨_ | _, hub⟩ <;> dsimp only
  · have flag := apart.flag_set hub state
    have listens : Consumer.Step (cancellation.flag.get state) .selects (place.get state)
        ([] : List α) .subscribes (place.get (place.set hub state)) := by
      rw [place.get_set]
      exact .listen listened
    split
    case isTrue raised =>
      have silent : ¬(place.get (place.set hub state)).signal.isCalled = true := by
        have kept := (Hub.eq_of_listen listened).1
        rw [place.get_set, (Signal.listen_eq_false kept).2]
        exact Bool.false_ne_true
      exact (comes_unlisten apart looks silent (.stop raised)).head flag listens
    case isFalse lowered =>
      have waits : Comes place cancellation feeds .subscribes (place.set hub state)
          (.waiting ⟨none, fun s => (place.get s).signal.isCalled ||
              (cancellation.wait (cancellation.flag.get (place.set hub state)).version).opens s,
              detach place⟩
            (afford place fun s => consume place cancellation left (answer place s))
            (place.set hub state)) :=
        ⟨_, .step (.wait (Bool.eq_false_iff.mpr lowered)) .refl, rfl, rfl, .waits⟩
      exact waits.head flag listens
  · apply (looks (place.set hub state)).head (apart.flag_set hub state)
    rw [place.get_set]
    exact .heard listened

end turns

/-- A turn of the consumer from the top of its loop on. -/
theorem comes_consume (apart : Apart place cancellation) (feeds : List (Feed σ α)) (left : Nat) :
    ∀ state, Comes place cancellation feeds .looks state
      (consume place cancellation left state) := by
  induction left with
  | zero => exact fun state => ⟨_, .refl, rfl, rfl, .spent⟩
  | succ left ih =>
    intro state
    rw [consume_succ]
    rcases looked : (place.get state).look (cancellation.flag.get state).raised with
      ⟨count | value | _ | _, hub⟩ <;> have steps := Steps.look looked <;> dsimp only at steps ⊢
    · have same := (apart.hub_trace (.mergeCancelled count) _).trans (place.get_set hub state)
      have flag := (apart.flag_trace (.mergeCancelled count) _).trans (apart.flag_set hub state)
      exact ⟨_, same.symm ▸ steps, flag, rfl, .gone rfl⟩
    · exact ⟨_, (place.get_set hub state).symm ▸ steps, apart.flag_set hub state, rfl, .rests⟩
    · exact ⟨_, (place.get_set hub state).symm ▸ steps, apart.flag_set hub state, rfl, .gone rfl⟩
    · have flag := apart.flag_set hub state
      rw [← place.get_set hub state] at steps
      unfold afford
      split
      · exact (comes_await apart ih).after_steps flag steps
      · exact ⟨_, steps, flag, rfl, .selects⟩

end Consumer

end Deferred.Merge
