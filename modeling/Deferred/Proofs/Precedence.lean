import Deferred.Proofs.Apart.Halves
import Deferred.Proofs.Boundary.Containment

/-! What a join comes to. Its run is made of turns of the two sides: both are called once, the left
one first, and in every poll each side that may go on does, until both have answered. Only then is
it decided what the join answers, by the two results and nothing else: a failure goes before an
absence and the left side before the right one, and the code of the user's is called for two values
only. Nothing is asked of the sides: they may share the state with each other and with everybody. -/

namespace Deferred

variable {σ α β γ κ ρ : Type}

section
variable [Host σ]

/-- What two results decide, with the code of the user's that is called in between. The keys are
made left then right and compared, and only values with equal keys are combined. -/
inductive Decides (keyLeft : α → Code σ κ) (keyRight : β → Code σ κ) (sameKey : κ → κ → Code σ Bool)
    (combine : α → β → Code σ γ) : Finding α → Finding β → σ → Finding γ → σ → Prop where
  | leftFailed {error right state} :
      Decides _ _ _ _ (.failed error) right state (.failed error) state
  | rightFailed {left error state} (sound : left.isFailure = false) :
      Decides _ _ _ _ left (.failed error) state (.failed error) state
  | absent {left right state} (leftSound : left.isFailure = false)
      (rightSound : right.isFailure = false) (missing : left.isAbsent || right.isAbsent) :
      Decides _ _ _ _ left right state .absent state
  | keyLeftPanics {a b state payload last} (panics : keyLeft a state = (.error payload, last)) :
      Decides _ _ _ _ (.found a) (.found b) state (.failed (.panicked payload.reads))
        (Host.record (.panicked payload.reads) last)
  | keyRightPanics {a b x state first payload last} (left : keyLeft a state = (.ok x, first))
      (panics : keyRight b first = (.error payload, last)) :
      Decides _ _ _ _ (.found a) (.found b) state (.failed (.panicked payload.reads))
        (Host.record (.panicked payload.reads) last)
  | comparisonPanics {a b x y state first second payload last}
      (left : keyLeft a state = (.ok x, first)) (right : keyRight b first = (.ok y, second))
      (panics : sameKey x y second = (.error payload, last)) :
      Decides _ _ _ _ (.found a) (.found b) state (.failed (.panicked payload.reads))
        (Host.record (.panicked payload.reads) last)
  | keysDiffer {a b x y state first second last} (left : keyLeft a state = (.ok x, first))
      (right : keyRight b first = (.ok y, second))
      (differ : sameKey x y second = (.ok false, last)) :
      Decides _ _ _ _ (.found a) (.found b) state (.failed .invalidJoin) last
  | combinationPanics {a b x y state first second third payload last}
      (left : keyLeft a state = (.ok x, first)) (right : keyRight b first = (.ok y, second))
      (agree : sameKey x y second = (.ok true, third))
      (panics : combine a b third = (.error payload, last)) :
      Decides _ _ _ _ (.found a) (.found b) state (.failed (.panicked payload.reads))
        (Host.record (.panicked payload.reads) last)
  | combined {a b x y c state first second third last}
      (left : keyLeft a state = (.ok x, first)) (right : keyRight b first = (.ok y, second))
      (agree : sameKey x y second = (.ok true, third))
      (gives : combine a b third = (.ok c, last)) :
      Decides _ _ _ _ (.found a) (.found b) state (.found c) last

end

/-! ### Where a poll leaves a computation -/

namespace Poll

/-- The computation where the poll leaves it, once it has spawned its tasks. -/
def settled : Poll σ ρ → Poll σ ρ
  | ready value state => ready value state
  | panic payload state => panic payload state
  | waiting wait resume state => waiting wait resume state
  | spawn _ rest state => (rest state).settled

/-- What is the same behind each task that is spawned is the same where the poll leaves it. -/
theorem settled_through {τ : Type} (view : Poll σ ρ → τ)
    (spawns : ∀ child rest state, view (.spawn child rest state) = view (rest state))
    (poll : Poll σ ρ) : view poll.settled = view poll := by
  induction poll with
  | ready | panic | waiting => rfl
  | spawn child rest state ih => exact (ih state).trans (spawns child rest state).symm

theorem running_settled (poll : Poll σ ρ) : poll.settled.running = poll.running :=
  poll.settled_through running fun _ _ _ => rfl

theorem state_settled (poll : Poll σ ρ) : poll.settled.state = poll.state :=
  poll.settled_through state fun _ _ _ => rfl

theorem settled_bind (poll : Poll σ α) (next : α → σ → Poll σ β) :
    (poll.bind next).settled = (poll.settled.bind next).settled :=
  (poll.settled_through (fun poll => (poll.bind next).settled) fun _ _ _ => rfl).symm

end Poll

namespace Half

def running : Half σ α → Running σ α
  | done value => .answered value
  | rests wait resume => .stopped wait resume

theorem settled_after (right : Half σ β) (poll : Poll σ α) :
    (right.after poll).settled = (right.after poll.settled).settled := by
  have spawns : ∀ child rest state, (right.after (.spawn child rest state : Poll σ α)).settled =
      (right.after (rest state)).settled := by
    cases right <;> exact fun _ _ _ => rfl
  exact (poll.settled_through (fun poll => (right.after poll).settled) spawns).symm

theorem settled_beside (left : Half σ α) (poll : Poll σ β) :
    (left.beside poll).settled = (left.beside poll.settled).settled := by
  have spawns : ∀ child rest state, (left.beside (.spawn child rest state : Poll σ β)).settled =
      (left.beside (rest state)).settled := by
    cases left <;> exact fun _ _ _ => rfl
  exact (poll.settled_through (fun poll => (left.beside poll).settled) spawns).symm

end Half

/-- A poll that does not panic leaves the computation done or at rest. -/
theorem Poll.exists_half {poll : Poll σ ρ} (calm : poll.running ≠ .panicked) :
    ∃ half : Half σ ρ, poll.settled = half.stop poll.state ∧ poll.running = half.running := by
  rw [← poll.running_settled, ← poll.state_settled] at *
  induction poll with
  | ready value state => exact ⟨.done value, rfl, rfl⟩
  | panic payload state => exact absurd rfl calm
  | waiting wait resume state => exact ⟨.rests wait resume, rfl, rfl⟩
  | spawn child rest state ih => exact ih state calm

/-! ### The turns of the two sides -/

/-- What comes of a run when it is its turn: it is polled if it may go on. -/
inductive Running.Goes : Running σ ρ → σ → List (σ × σ) → σ → Running σ ρ → Prop where
  | polled {wait resume state} (opens : wait.opens state = true) :
      Goes (.stopped wait resume) state [(state, (resume state).state)] (resume state).state
        (resume state).running
  | rests {wait resume state} (closed : wait.opens state = false) :
      Goes (.stopped wait resume) state [] state (.stopped wait resume)
  | ended {result state} : Goes (.answered result) state [] state (.answered result)

/-- Whether a run is waiting for something that the state gives. -/
def Running.opens (run : Running σ ρ) (state : σ) : Bool :=
  match run with
  | .stopped wait _ => wait.opens state
  | _ => false

/-- What is left of the state when a run is dropped. -/
def Running.release (run : Running σ ρ) (state : σ) : σ :=
  match run with
  | .stopped wait _ => wait.release state
  | _ => state

/-- The turns of two actions in common, each on its own, and what is left of them. Both are called
once, one after the other; then there are common polls, in which first the left one goes on and then
the right one. Between two common turns other code may have left any state. -/
inductive Pairing (left : Action σ α) (right : Action σ β) : List (σ × σ) →
    List (σ × σ) → Running σ α → List (σ × σ) → Running σ β → Prop where
  | call {state between after first second} (calls : left.call state = (.ok first, between))
      (follows : right.call between = (.ok second, after)) :
      Pairing left right [(state, after)] [(state, between)] (.stopped .passed first)
        [(between, after)] (.stopped .passed second)
  | poll {common own one others other state between after turns oneNext more otherNext}
      (earlier : Pairing left right common own one others other)
      (may : one.opens state || other.opens state)
      (goes : one.Goes state turns between oneNext)
      (follows : other.Goes between more after otherNext) :
      Pairing left right (common ++ [(state, after)]) (own ++ turns) oneNext (others ++ more)
        otherNext

section
variable {left : Action σ α} {right : Action σ β} {common own others : List (σ × σ)}
  {one : Running σ α} {other : Running σ β}

theorem Running.Goes.history {action : Action σ ρ} {run next : Running σ ρ} {state after : σ}
    {turns : List (σ × σ)} {tasks : List (Option (Job σ))} (goes : run.Goes state turns after next)
    (history : action.History own [] run tasks) :
    ∃ more, action.History (own ++ turns) [] next more := by
  cases goes with
  | polled opens => exact ⟨_, history.poll opens⟩
  | rests closed => exact ⟨_, by rwa [List.append_nil]⟩
  | ended => exact ⟨_, by rwa [List.append_nil]⟩

theorem Pairing.left_history (pairing : Pairing left right common own one others other) :
    ∃ tasks, left.History own [] one tasks := by
  induction pairing with
  | call calls follows => exact ⟨_, .call calls⟩
  | poll earlier may goes follows ih =>
    obtain ⟨tasks, history⟩ := ih
    exact goes.history history

theorem Pairing.right_history (pairing : Pairing left right common own one others other) :
    ∃ tasks, right.History others [] other tasks := by
  induction pairing with
  | call calls follows => exact ⟨_, .call follows⟩
  | poll earlier may goes follows ih =>
    obtain ⟨tasks, history⟩ := ih
    exact follows.history history

end

/-- The calls hand back futures, and no turn ends in a panic. -/
structure Action.Tame (action : Action σ ρ) : Prop where
  calls : ∀ state, ∃ future after, action.call state = (.ok future, after)
  calm : ∀ {own run tasks}, action.History own [] run tasks → run ≠ .panicked

theorem Built.tame [Host σ] {action : Action σ ρ} (built : Built (Manner.any : Manner σ) action) :
    action.Tame := by
  have sound := built.sound Manner.any_within
  refine ⟨fun state => ?_, fun {own run tasks} history panicked => ?_⟩
  · obtain ⟨future, after, called, -, -⟩ := sound state
    exact ⟨future, after, called⟩
  · have kept := (sound.kept history).run
    rw [panicked] at kept
    exact kept

namespace Half

/-- No turn of the half ends in a panic. -/
def Calm (half : Half σ α) : Prop :=
  ∀ state turns after next, half.running.Goes state turns after next → next ≠ .panicked

theorem opens_running (half : Half σ α) (state : σ) :
    half.running.opens state = half.wait.opens state := by
  cases half <;> rfl

theorem release_running (half : Half σ α) (state : σ) :
    half.running.release state = half.wait.release state := by
  cases half <;> rfl

/-- A half that goes on comes to rest again or is done. -/
theorem goes_of_opens {half : Half σ α} (calm : half.Calm) {state : σ}
    (opens : half.wait.opens state = true) :
    ∃ (next : Half σ α) (turns : List (σ × σ)) (after : σ),
      half.running.Goes state turns after next.running ∧
        (half.resume state).settled = next.stop after := by
  cases half with
  | done value => cases opens
  | rests wait resume =>
    have goes : (rests wait resume).running.Goes state _ _ _ := .polled opens
    obtain ⟨next, settled, running⟩ := Poll.exists_half (calm _ _ _ _ goes)
    exact ⟨next, _, _, running ▸ goes, settled⟩

theorem goes_of_closed {half : Half σ α} {state : σ} (closed : half.wait.opens state = false) :
    half.running.Goes state [] state half.running := by
  cases half with
  | done value => exact .ended
  | rests wait resume => exact .rests closed

variable {left : Half σ α} {right : Half σ β}

/-- The left half has had its turn, and the right one goes on if it may. -/
theorem settled_follows (calm : right.Calm) (left : Half σ α) (state : σ) :
    ∃ (next : Half σ β) (turns : List (σ × σ)) (after : σ),
      right.running.Goes state turns after next.running ∧
        (right.after (left.stop state)).settled = (left.both next after).settled := by
  rw [after_stop]
  cases opens : right.wait.opens state with
  | true =>
    obtain ⟨next, turns, after, goes, settled⟩ := goes_of_opens calm opens
    refine ⟨next, turns, after, goes, ?_⟩
    rw [if_pos rfl, settled_beside, settled]
    rfl
  | false => exact ⟨right, [], state, goes_of_closed opens, rfl⟩

/-- A common poll is a turn of the left half and then one of the right half. -/
theorem settled_poll (calmLeft : left.Calm) (calmRight : right.Calm) {state : σ}
    (may : (left.wait.opens state || right.wait.opens state) = true) :
    ∃ (next : Half σ α) (turns : List (σ × σ)) (between : σ) (mate : Half σ β)
      (more : List (σ × σ)) (after : σ),
      left.running.Goes state turns between next.running ∧
        right.running.Goes between more after mate.running ∧
        (left.poll right state).settled = (next.both mate after).settled := by
  unfold poll
  cases opens : left.wait.opens state with
  | true =>
    obtain ⟨next, turns, between, goes, settled⟩ := goes_of_opens calmLeft opens
    obtain ⟨mate, more, after, follows, both⟩ := settled_follows calmRight next between
    refine ⟨next, turns, between, mate, more, after, goes, follows, ?_⟩
    rw [if_pos rfl, settled_after, settled, both]
  | false =>
    rw [opens, Bool.false_or] at may
    obtain ⟨mate, more, after, follows, both⟩ := settled_follows calmRight left state
    refine ⟨left, [], state, mate, more, after, goes_of_closed opens, follows, ?_⟩
    rw [← both, after_stop, if_pos may]
    rfl

end Half

/-! ### The turns of the join -/

/-- Two halves of which one is not done, at the wait of both. -/
structure Awaits (combine : α → β → Future σ γ) (wait : Wait σ) (resume : σ → Poll σ γ)
    (left : Half σ α) (right : Half σ β) : Prop where
  unfinished : ∀ a b, left = .done a → right ≠ .done b
  opens : ∀ state, wait.opens state = (left.wait.opens state || right.wait.opens state)
  release : ∀ state, wait.release state = right.wait.release (left.wait.release state)
  resume : ∀ state, wait.opens state = true → resume state =
    (left.poll right state).bind fun results now => combine results.1 results.2 now

/-- Either both halves are done and the results are combined, or the join awaits them. -/
theorem Half.both_combined (left : Half σ α) (right : Half σ β) (combine : α → β → Future σ γ)
    (state : σ) :
    (∃ a b, left = .done a ∧ right = .done b ∧
      ((left.both right state).bind fun results now => combine results.1 results.2 now) =
        combine a b state) ∨
    ∃ wait resume,
      ((left.both right state).bind fun results now => combine results.1 results.2 now) =
        .waiting wait resume state ∧ Awaits combine wait resume left right := by
  cases left with
  | done a =>
    cases right with
    | done b => exact .inl ⟨a, b, rfl, rfl, rfl⟩
    | rests wait resume =>
      exact .inr ⟨_, _, rfl, nofun, fun _ => rfl, fun _ => rfl, fun _ _ => rfl⟩
  | rests wait resume =>
    cases right with
    | done b =>
      refine .inr ⟨_, _, rfl, nofun, fun _ => (Bool.or_false _).symm, fun _ => rfl,
        fun state opens => ?_⟩
      have goes : (Half.rests wait resume).poll (.done b) state = _ := if_pos opens
      rw [goes]
      rfl
    | rests other later => exact .inr ⟨_, _, rfl, nofun, fun _ => rfl, fun _ => rfl, fun _ _ => rfl⟩

/-- What the turns of a join come to, told by those of its two sides. It rests while a side has not
answered, and may go on when a side may. It answers in the poll in which the last side has answered,
and if it is dropped before, so is whatever has not. -/
inductive Conducts (left : Action σ α) (right : Action σ β) (decides : α → β → σ → γ → σ → Prop) :
    List (σ × σ) → Running σ γ → Prop where
  | rests {common own one others other wait resume}
      (pairing : Pairing left right common own one others other)
      (unfinished : ∀ a b, one = .answered a → other ≠ .answered b)
      (opens : ∀ state, wait.opens state = (one.opens state || other.opens state)) :
      Conducts left right decides common (.stopped wait resume)
  | answers {earlier own others state middle last a b result}
      (pairing : Pairing left right (earlier ++ [(state, middle)]) own (.answered a) others
        (.answered b))
      (decided : decides a b middle result last) :
      Conducts left right decides (earlier ++ [(state, last)]) (.answered result)
  | dropped {common own one others other state}
      (pairing : Pairing left right common own one others other)
      (unfinished : ∀ a b, one = .answered a → other ≠ .answered b) :
      Conducts left right decides (common ++ [(state, other.release (one.release state))]) .dropped

/-- Both sides are called in the call, and both results are combined in no more than one poll. -/
structure Action.Pairs (left : Action σ α) (right : Action σ β) (combine : α → β → Future σ γ)
    (decides : α → β → σ → γ → σ → Prop) (joint : Action σ γ) : Prop where
  call : ∀ {state between after first second}, left.call state = (.ok first, between) →
    right.call between = (.ok second, after) →
      joint.call state = (.ok fun next => (Future.both first second next).bind fun results =>
        combine results.1 results.2, after)
  decides : ∀ a b state, ∃ result last,
    combine a b state = .ready result last ∧ decides a b state result last

/-- Where a run of the join stands. -/
inductive Stands (left : Action σ α) (right : Action σ β) (combine : α → β → Future σ γ)
    (decides : α → β → σ → γ → σ → Prop) : List (σ × σ) → Running σ γ → Prop where
  | awaits {common own others wait resume} {half : Half σ α} {mate : Half σ β}
      (pairing : Pairing left right common own half.running others mate.running)
      (awaits : Awaits combine wait resume half mate) :
      Stands left right combine decides common (.stopped wait resume)
  | ended {own run} (finished : ∀ wait resume, run ≠ .stopped wait resume)
      (conducts : Conducts left right decides own run) : Stands left right combine decides own run

theorem Awaits.unfinished_running {combine : α → β → Future σ γ} {wait : Wait σ}
    {resume : σ → Poll σ γ} {half : Half σ α} {mate : Half σ β}
    (awaits : Awaits combine wait resume half mate) (a : α) (b : β)
    (answered : half.running = .answered a) : mate.running ≠ .answered b := by
  cases half with
  | rests => cases answered
  | done a =>
    cases mate with
    | rests => nofun
    | done b => exact absurd rfl (awaits.unfinished a b rfl)

theorem Stands.conducts {left : Action σ α} {right : Action σ β} {combine : α → β → Future σ γ}
    {decides : α → β → σ → γ → σ → Prop} {own : List (σ × σ)} {run : Running σ γ}
    (stands : Stands left right combine decides own run) :
    Conducts left right decides own run := by
  cases stands with
  | @awaits ofLeft ofRight wait resume half mate pairing awaits =>
    refine .rests pairing awaits.unfinished_running fun state => ?_
    rw [awaits.opens, half.opens_running, mate.opens_running]
  | ended finished conducts => exact conducts

namespace Action.Pairs

variable {left : Action σ α} {right : Action σ β} {combine : α → β → Future σ γ}
  {decides : α → β → σ → γ → σ → Prop} {joint : Action σ γ} {own others : List (σ × σ)}
  {run : Running σ γ} {tasks : List (Option (Job σ))}

/-- Right after a common turn of both sides the join rests again or has answered. -/
theorem stands_of_pairing (pairs : left.Pairs right combine decides joint)
    {earlier own others : List (σ × σ)} {half : Half σ α} {mate : Half σ β} {state after : σ}
    {poll : Poll σ γ}
    (pairing :
      Pairing left right (earlier ++ [(state, after)]) own half.running others mate.running)
    (settled : poll.settled =
      ((half.both mate after).bind fun results now => combine results.1 results.2 now).settled) :
    Stands left right combine decides (earlier ++ [(state, poll.state)]) poll.running := by
  rw [← poll.state_settled, ← poll.running_settled, settled]
  rcases half.both_combined mate combine after with
    ⟨a, b, rfl, rfl, same⟩ | ⟨wait, resume, same, awaits⟩
  · obtain ⟨result, last, ready, decided⟩ := pairs.decides a b after
    rw [same, ready]
    exact .ended nofun (.answers pairing decided)
  · rw [same]
    exact .awaits pairing awaits

theorem stands (pairs : left.Pairs right combine decides joint) (tameLeft : left.Tame)
    (tameRight : right.Tame) (history : joint.History own others run tasks) :
    Stands left right combine decides own run := by
  induction history with
  | @call future state after called =>
    obtain ⟨first, between, calls⟩ := tameLeft.calls state
    obtain ⟨second, later, follows⟩ := tameRight.calls between
    cases called.symm.trans (pairs.call calls follows)
    have pairing : Pairing left right _ _ (Half.rests .passed first).running _
      (Half.rests .passed second).running := .call calls follows
    exact .awaits pairing ⟨nofun, fun _ => rfl, fun _ => rfl, fun _ _ => rfl⟩
  | @unwinds payload state after called =>
    obtain ⟨first, between, calls⟩ := tameLeft.calls state
    obtain ⟨second, later, follows⟩ := tameRight.calls between
    cases called.symm.trans (pairs.call calls follows)
  | @poll own others wait resume tasks state earlier opens ih =>
    cases ih with
    | ended finished => exact absurd rfl (finished _ _)
    | @awaits ofLeft ofRight wait resume half mate pairing awaits =>
      -- Whatever a side may do from here is part of a history of that side by itself.
      have calmLeft : half.Calm := fun s turns after next goes => by
        obtain ⟨tasks, history⟩ := pairing.left_history
        obtain ⟨more, goesOn⟩ := goes.history history
        exact tameLeft.calm goesOn
      have calmRight : mate.Calm := fun s turns after next goes => by
        obtain ⟨tasks, history⟩ := pairing.right_history
        obtain ⟨more, goesOn⟩ := goes.history history
        exact tameRight.calm goesOn
      have may := (awaits.opens state).symm.trans opens
      obtain ⟨next, turns, between, partner, more, after, goes, follows, settled⟩ :=
        Half.settled_poll calmLeft calmRight may
      rw [← half.opens_running, ← mate.opens_running] at may
      refine stands_of_pairing pairs (pairing.poll may goes follows) ?_
      rw [awaits.resume state opens, Poll.settled_bind, settled, ← Poll.settled_bind]
  | @drop own others wait resume tasks state earlier ih =>
    cases ih with
    | ended finished => exact absurd rfl (finished _ _)
    | @awaits ofLeft ofRight wait resume half mate pairing awaits =>
      -- The join releases its left side first, and a side that has answered has nothing to release.
      have dropped : Conducts left right decides (own ++ [(state, _)]) .dropped :=
        .dropped pairing awaits.unfinished_running
      rw [half.release_running, mate.release_running, ← awaits.release] at dropped
      exact .ended nofun dropped
  | task earlier here opens ih => exact ih

theorem conducts (pairs : left.Pairs right combine decides joint) (tameLeft : left.Tame)
    (tameRight : right.Tame) (history : joint.History own others run tasks) :
    Conducts left right decides own run :=
  (pairs.stands tameLeft tameRight history).conducts

end Action.Pairs

/-! ### The decision -/

variable {keyLeft : α → Code σ κ} {keyRight : β → Code σ κ} {sameKey : κ → κ → Code σ Bool}
  {combine : α → β → Code σ γ}

section
variable {a : α} {b : β} {x y : κ} {state first second last : σ} {payload : Payload}

theorem keysAgree_of_keyLeft_panics (panics : keyLeft a state = (.error payload, last)) :
    Attempt.keysAgree keyLeft keyRight sameKey a b state = (.error payload, last) :=
  Code.bind_of_error panics

theorem keysAgree_of_keyRight_panics (left : keyLeft a state = (.ok x, first))
    (panics : keyRight b first = (.error payload, last)) :
    Attempt.keysAgree keyLeft keyRight sameKey a b state = (.error payload, last) :=
  (Code.bind_of_ok left).trans (Code.bind_of_error panics)

theorem keysAgree_of_keys (left : keyLeft a state = (.ok x, first))
    (right : keyRight b first = (.ok y, second)) :
    Attempt.keysAgree keyLeft keyRight sameKey a b state = sameKey x y second :=
  (Code.bind_of_ok left).trans (Code.bind_of_ok right)

end

variable [Host σ]

section
variable {a : α} {b : β} {c : γ} {state after last : σ} {payload : Payload}

/-- What follows contained code goes on with its answer, in the same poll. -/
theorem Future.contain_bind_apply {code : Code σ α} {next : Except Error α → Future σ ρ}
    {answer : Except Error α} (answered : contain code state = (answer, after)) :
    (liftM (contain code) >>= next : Future σ ρ) state = next answer after := by
  show next (contain code state).1 (contain code state).2 = _
  rw [answered]

theorem joinFindings_of_keys_panic
    (panics : Attempt.keysAgree keyLeft keyRight sameKey a b state = (.error payload, last)) :
    Search.joinFindings keyLeft keyRight sameKey combine (.found a) (.found b) state =
      .ready (.failed (.panicked payload.reads)) (Host.record (.panicked payload.reads) last) := by
  rw [← Error.ofPanic_eq]
  exact Future.contain_bind_apply (contain_of_panic panics)

theorem joinFindings_of_keys_differ
    (differ : Attempt.keysAgree keyLeft keyRight sameKey a b state = (.ok false, last)) :
    Search.joinFindings keyLeft keyRight sameKey combine (.found a) (.found b) state =
      .ready (.failed .invalidJoin) last :=
  Future.contain_bind_apply (contain_of_ok differ)

/-- The keys agree, and the values are combined. -/
theorem joinFindings_of_keys_agree {answer : Except Error γ}
    (agree : Attempt.keysAgree keyLeft keyRight sameKey a b state = (.ok true, after))
    (answered : contain (combine a b) after = (answer, last)) :
    Search.joinFindings keyLeft keyRight sameKey combine (.found a) (.found b) state =
      .ready (Search.ofContained answer) last :=
  (Future.contain_bind_apply (contain_of_ok agree)).trans (Future.contain_bind_apply answered)

end

/-- What is decided is what the join does with two results. -/
theorem Decides.joinFindings {a : Finding α} {b : Finding β} {result : Finding γ} {state last : σ}
    (decides : Decides keyLeft keyRight sameKey combine a b state result last) :
    Search.joinFindings keyLeft keyRight sameKey combine a b state = .ready result last := by
  cases decides with
  | leftFailed => rfl
  | rightFailed sound =>
    cases a with
    | failed error => cases sound
    | found | absent => rfl
  | absent leftSound rightSound missing =>
    cases a with
    | failed error => cases leftSound
    | found a =>
      cases b with
      | found b => cases missing
      | absent => rfl
      | failed error => cases rightSound
    | absent =>
      cases b with
      | failed error => cases rightSound
      | found | absent => rfl
  | keyLeftPanics panics => exact joinFindings_of_keys_panic (keysAgree_of_keyLeft_panics panics)
  | keyRightPanics left panics =>
    exact joinFindings_of_keys_panic (keysAgree_of_keyRight_panics left panics)
  | comparisonPanics left right panics =>
    exact joinFindings_of_keys_panic ((keysAgree_of_keys left right).trans panics)
  | keysDiffer left right differ =>
    exact joinFindings_of_keys_differ ((keysAgree_of_keys left right).trans differ)
  | combinationPanics left right agree panics =>
    rw [← Error.ofPanic_eq]
    exact joinFindings_of_keys_agree ((keysAgree_of_keys left right).trans agree)
      (contain_of_panic panics)
  | combined left right agree gives =>
    exact joinFindings_of_keys_agree ((keysAgree_of_keys left right).trans agree)
      (contain_of_ok gives)

theorem exists_decides_found (a : α) (b : β) (state : σ) :
    ∃ result last, Decides keyLeft keyRight sameKey combine (.found a) (.found b) state result
      last := by
  cases left : keyLeft a state with
  | mk answer first =>
    cases answer with
    | error payload => exact ⟨_, _, .keyLeftPanics left⟩
    | ok x =>
      cases right : keyRight b first with
      | mk answer second =>
        cases answer with
        | error payload => exact ⟨_, _, .keyRightPanics left right⟩
        | ok y =>
          match compared : sameKey x y second with
          | (.error payload, third) => exact ⟨_, _, .comparisonPanics left right compared⟩
          | (.ok false, third) => exact ⟨_, _, .keysDiffer left right compared⟩
          | (.ok true, third) =>
            match combines : combine a b third with
            | (.error payload, last) =>
              exact ⟨_, _, .combinationPanics left right compared combines⟩
            | (.ok c, last) => exact ⟨_, _, .combined left right compared combines⟩

theorem exists_decides (a : Finding α) (b : Finding β) (state : σ) :
    ∃ result last, Decides keyLeft keyRight sameKey combine a b state result last :=
  match a, b with
  | .failed _, _ => ⟨_, _, .leftFailed⟩
  | .found _, .failed _ => ⟨_, _, .rightFailed rfl⟩
  | .absent, .failed _ => ⟨_, _, .rightFailed rfl⟩
  | .absent, .found _ => ⟨_, _, .absent rfl rfl rfl⟩
  | .absent, .absent => ⟨_, _, .absent rfl rfl rfl⟩
  | .found _, .absent => ⟨_, _, .absent rfl rfl rfl⟩
  | .found a, .found b => exists_decides_found a b state

/-- Attempts are joined as searches are, without absence. -/
theorem joinFindings_widen (a : Verdict α) (b : Verdict β) :
    Search.joinFindings keyLeft keyRight sameKey combine a.widen b.widen =
      Verdict.widen <$> Attempt.joinVerdicts keyLeft keyRight sameKey combine a b := by
  cases a with
  | failure error => rfl
  | success a =>
    cases b with
    | failure error => rfl
    | success b =>
      funext state
      show Search.joinFindings keyLeft keyRight sameKey combine (.found a) (.found b) state =
        (Attempt.joinVerdicts keyLeft keyRight sameKey combine (.success a) (.success b) state).map
          Verdict.widen
      cases answered : contain (Attempt.keysAgree keyLeft keyRight sameKey a b) state with
      | mk answer after =>
        have ofFindings : Search.joinFindings keyLeft keyRight sameKey combine (.found a) (.found b)
          state = _ := Future.contain_bind_apply answered
        have ofVerdicts : Attempt.joinVerdicts keyLeft keyRight sameKey combine (.success a)
          (.success b) state = _ := Future.contain_bind_apply answered
        rw [ofFindings, ofVerdicts]
        match answer with
        | .error error => rfl
        | .ok false => rfl
        | .ok true =>
          show Poll.ready (Search.ofContained (contain (combine a b) after).1) _ =
            .ready (Verdict.ofExcept (contain (combine a b) after).1).widen _
          cases (contain (combine a b) after).1 <;> rfl

theorem Attempt.join_pairs (left : Attempt σ α) (right : Attempt σ β) :
    left.Pairs right (joinVerdicts keyLeft keyRight sameKey combine)
      (fun a b state result last =>
        Decides keyLeft keyRight sameKey combine a.widen b.widen state result.widen last)
      (left.join right keyLeft keyRight sameKey combine) := by
  refine ⟨fun calls follows => (Code.bind_of_ok calls).trans (Code.bind_of_ok follows),
    fun a b state => ?_⟩
  obtain ⟨result, last, decides⟩ : ∃ result last,
      Decides keyLeft keyRight sameKey combine a.widen b.widen state result last :=
    exists_decides a.widen b.widen state
  have ready : (joinVerdicts keyLeft keyRight sameKey combine a b state).map Verdict.widen =
      .ready result last :=
    (congrFun (joinFindings_widen a b) state).symm.trans decides.joinFindings
  cases joined : joinVerdicts keyLeft keyRight sameKey combine a b state with
  | ready verdict after =>
    rw [joined] at ready
    cases ready
    exact ⟨verdict, last, rfl, decides⟩
  | panic | waiting | spawn =>
    rw [joined] at ready
    cases ready

theorem Search.join_pairs (left : Search σ α) (right : Search σ β) :
    left.Pairs right (joinFindings keyLeft keyRight sameKey combine)
      (Decides keyLeft keyRight sameKey combine)
      (left.join right keyLeft keyRight sameKey combine) := by
  refine ⟨fun calls follows => (Code.bind_of_ok calls).trans (Code.bind_of_ok follows),
    fun a b state => ?_⟩
  obtain ⟨result, last, decides⟩ := exists_decides a b state
  exact ⟨result, last, decides.joinFindings, decides⟩

/-- A join is decided by the two results and by nothing else. Whatever comes between the turns of
its run, both sides are called once and go on until both have answered, and then the first failure
is the answer, or else absence if a value is missing, or else what becomes of the two values. -/
theorem joins_decided_by_results (keyLeft : α → Code σ κ) (keyRight : β → Code σ κ)
    (sameKey : κ → κ → Code σ Bool) (combine : α → β → Code σ γ) :
    (∀ (a : Finding α) (b : Finding β) (state : σ), ∃ result last,
      Decides keyLeft keyRight sameKey combine a b state result last ∧
        ∀ other later, Decides keyLeft keyRight sameKey combine a b state other later →
          other = result ∧ later = last) ∧
    (∀ (left : Attempt σ α) (right : Attempt σ β), Built Manner.any left → Built Manner.any right →
      ∀ own others run tasks,
        (left.join right keyLeft keyRight sameKey combine).History own others run tasks →
          Conducts left right (fun a b state result last =>
            Decides keyLeft keyRight sameKey combine a.widen b.widen state result.widen last)
            own run) ∧
    (∀ (left : Search σ α) (right : Search σ β), Built Manner.any left → Built Manner.any right →
      ∀ own others run tasks,
        (left.join right keyLeft keyRight sameKey combine).History own others run tasks →
          Conducts left right (Decides keyLeft keyRight sameKey combine) own run) ∧
    ∀ {ρ τ : Type} (left : Action σ ρ) (right : Action σ τ) (common own others one other),
      Pairing left right common own one others other →
        (∃ tasks, left.History own [] one tasks) ∧
          ∃ tasks, right.History others [] other tasks := by
  refine ⟨fun a b state => ?_,
    fun left right builtLeft builtRight own others run tasks history => ?_,
    fun left right builtLeft builtRight own others run tasks history => ?_,
    fun left right common own others one other pairing =>
      ⟨pairing.left_history, pairing.right_history⟩⟩
  · obtain ⟨result, last, decides⟩ := exists_decides a b state
    refine ⟨result, last, decides, fun other later instead => ?_⟩
    cases instead.joinFindings.symm.trans decides.joinFindings
    exact ⟨rfl, rfl⟩
  · exact (Attempt.join_pairs left right).conducts builtLeft.tame builtRight.tame history
  · exact (Search.join_pairs left right).conducts builtLeft.tame builtRight.tame history

/-! ### Two failures -/

/-- Fails late. -/
def tardy : Attempt (Notebook Unit) Nat :=
  .new (pure do
    Future.sleep 5
    return (.error (.message "late") : Except Error Nat))

/-- The right side fails at once. -/
def outrun : Attempt (Notebook Unit) Nat :=
  tardy.join (.failure (.message "early")) (fun a => pure a) (fun b => pure b)
    (fun x y => pure (x == y)) fun a b => pure (a + b)

/-- The left side fails last, and its failure is the answer. -/
theorem outrun_decided_by_results :
    ∃ own, outrun.History own [] (.answered (.failure (.message "late"))) [] ∧
      Conducts tardy (Attempt.failure (α := Nat) (.message "early"))
        (fun a b state result last => Decides (fun a => pure a) (fun b => pure b)
          (fun x y => pure (x == y)) (fun a b => pure (a + b)) a.widen b.widen state
            result.widen last)
        own (.answered (.failure (.message "late") : Verdict Nat)) := by
  have called : outrun.History _ [] (.stopped .passed _) [] :=
    .call (rfl : outrun.call (Notebook.opened ()) = _)
  have polled : outrun.History _ [] (.stopped _ _) [] :=
    called.poll (rfl : Wait.passed.opens (Notebook.opened ()) = true)
  have ended : outrun.History _ [] (.answered (.failure (.message "late"))) [] :=
    @Action.History.poll _ _ _ _ _ _ _ _ { Notebook.opened () with time := 5 } polled rfl
  exact ⟨_, ended, (joins_decided_by_results _ _ _ _).2.1 tardy _
    (.new ⟨trivial, fun _ _ => trivial⟩) (.ofVerdict _) _ _ _ _ ended⟩

end Deferred
